import GateAccess.BorderLoop
import GateAccess.Ssd1306

namespace GateAccess

/-- How the bus answers a power command, and whether one it refuses has reached the panel all the
same. -/
structure PowerTransfer where
  ack : Bool
  took : Bool
  deriving DecidableEq

/-- `oled_ok`, `fb` and `panel_on` of `app_main`, with the driver, and whether the pixels are lit. -/
structure MainPanel where
  oledOk : Bool
  fb : OledFb
  panelOn : Bool
  driver : Ssd1306
  lit : Bool

def mainPower (s : MainPanel) (on : Bool) (t : PowerTransfer) : MainPanel × Bool :=
  let sent := ssd1306Power s.driver on t.ack
  ({ s with driver := sent.1, lit := if t.ack || t.took then on else s.lit }, sent.2)

/-- How the bus answers at power-up, and what the panel shows by then. -/
structure PanelBoot where
  driver : Ssd1306
  addAck : Bool
  seqAck : Bool
  -- whether the pixels are lit when the bring-up sequence is refused
  lit : Bool
  turns : Fin oledPages → PageTransfer
  power : PowerTransfer

def panelBoot (b : PanelBoot) (fb : OledFb) : MainPanel :=
  let brought := ssd1306Init b.driver b.addAck b.seqAck
  if !brought.2 then ⟨false, fb, false, brought.1, b.lit⟩
  else
    let fb := oledFbClear fb
    -- the sequence ends with the pixels on, and neither of these answers is looked at
    let flushed := ssd1306Flush brought.1 fb b.turns
    (mainPower ⟨true, fb, false, flushed.1, true⟩ false b.power).1

/-- What a pass of the main loop hands to the panel, and how the bus answers. -/
structure LoopPass where
  borderUntilMs : UInt32
  now : UiNow
  r : UiRender
  turns : Fin oledPages → PageTransfer
  power : PowerTransfer

def panelPass (s : MainPanel) (p : LoopPass) : MainPanel :=
  if !s.oledOk then s
  else
    let drawn := loopFrame p.borderUntilMs p.now s.fb p.r
    let s := { s with fb := drawn.1 }
    if drawn.2 then
      let flushed := ssd1306Flush s.driver drawn.1 p.turns
      let s := { s with driver := if flushed.2 then flushed.1 else ssd1306Invalidate flushed.1 }
      if !s.panelOn then
        let sent := mainPower s true p.power
        { sent.1 with panelOn := sent.2 }
      else s
    else if s.panelOn then
      let sent := mainPower s false p.power
      { sent.1 with panelOn := !sent.2 }
    else s

def passRun (b : PanelBoot) (fb : OledFb) (ps : List LoopPass) : MainPanel :=
  exec panelPass (panelBoot b fb) ps

/-- What is to be seen: nothing, or the panel's memory. -/
def MainPanel.glass (s : MainPanel) : Option PanelMem := if s.lit then some s.driver.panel else none

def LoopPass.wants (p : LoopPass) : Bool := (loopFrame p.borderUntilMs p.now (plainFb 0) p.r).2

def LoopPass.frame (p : LoopPass) : PanelMem := (loopFrame p.borderUntilMs p.now (plainFb 0) p.r).1.pages

/-- The bus refuses neither of the transfers of any page. -/
def PagesTaken (turns : Fin oledPages → PageTransfer) : Prop :=
  ∀ q, (turns q).addrAck = true ∧ (turns q).dataAck = true

/-- A power command that is refused leaves the pixels as they were. -/
def PowerTransfer.Honest (t : PowerTransfer) : Prop := t.ack = false → t.took = false

theorem loopFrame_fb (borderUntilMs : UInt32) (now : UiNow) (fb fb' : OledFb) (r : UiRender) :
    loopFrame borderUntilMs now fb r = loopFrame borderUntilMs now fb' r := by
  unfold loopFrame
  split <;> rfl

theorem flushLoop_taken {fb : OledFb} {dirty : UInt8} {turns : Fin oledPages → PageTransfer}
    (h : PagesTaken turns) (ps : List (Fin oledPages)) (panel : PanelMem) :
    (flushLoop fb dirty turns ps panel).2 = true := by
  induction ps generalizing panel with
  | nil => rfl
  | cons p ps ih =>
    have hsent : (flushPage panel fb p (turns p)).2 = true := by
      simp [flushPage, (h p).1, (h p).2]
    rw [flushLoop]
    split
    · rw [if_pos hsent]
      exact ih _
    · exact ih _

theorem ssd1306Flush_taken {turns : Fin oledPages → PageTransfer} (h : PagesTaken turns) (d : Ssd1306)
    (fb : OledFb) : (ssd1306Flush d fb turns).2 = true := by
  unfold ssd1306Flush
  dsimp only
  by_cases hnone : (if d.shadowValid then oledFbDirtyPages d.shadow fb else 0xFF) = 0
  · rw [if_pos hnone]
  · rw [if_neg hnone, flushLoop_taken h]
    rfl

/-- The flush of a pass, and the copy forgotten when it fails. -/
def passFlush (d : Ssd1306) (p : LoopPass) (fb : OledFb) : Ssd1306 :=
  let flushed := ssd1306Flush d (loopFrame p.borderUntilMs p.now fb p.r).1 p.turns
  if flushed.2 then flushed.1 else ssd1306Invalidate flushed.1

/-- All a pass can do to a panel that answered at power-up. -/
inductive PassStep (s : MainPanel) (p : LoopPass) : MainPanel → Prop
  | stays (fb : OledFb) : p.wants = true → s.panelOn = true →
      PassStep s p { s with fb := fb, driver := passFlush s.driver p s.fb }
  | lights (fb : OledFb) : p.wants = true → s.panelOn = false →
      PassStep s p { s with
        fb := fb
        driver := passFlush s.driver p s.fb
        panelOn := p.power.ack
        lit := if p.power.ack || p.power.took then true else s.lit }
  | darkens (fb : OledFb) : p.wants = false → s.panelOn = true →
      PassStep s p { s with
        fb := fb
        panelOn := !p.power.ack
        lit := if p.power.ack || p.power.took then false else s.lit }
  | rests (fb : OledFb) : p.wants = false → s.panelOn = false → PassStep s p { s with fb := fb }

theorem panelPass_step {s : MainPanel} (hok : s.oledOk = true) (p : LoopPass) :
    PassStep s p (panelPass s p) := by
  have hwants : p.wants = (loopFrame p.borderUntilMs p.now s.fb p.r).2 :=
    congrArg Prod.snd (loopFrame_fb _ _ _ _ _)
  unfold panelPass
  rw [if_neg (by simp [hok])]
  dsimp only
  by_cases hw : (loopFrame p.borderUntilMs p.now s.fb p.r).2 = true
  · rw [if_pos hw]
    by_cases hon : s.panelOn = true
    · rw [if_neg (by simp [hon])]
      exact .stays _ (hwants.trans hw) hon
    · rw [if_pos (by simp [hon])]
      exact .lights _ (hwants.trans hw) (by simpa using hon)
  · rw [if_neg hw]
    have hnot : p.wants = false := hwants.trans (by simpa using hw)
    by_cases hon : s.panelOn = true
    · rw [if_pos hon]
      exact .darkens _ hnot hon
    · rw [if_neg hon]
      exact .rests _ hnot (by simpa using hon)

/-- The copy is right and, when power commands are honest, the flag says whether the pixels are lit. -/
structure PanelTrue (s : MainPanel) : Prop where
  answers : s.oledOk = true
  shadow : ShadowTrue s.driver
  lit_flag : s.lit = s.panelOn

theorem passFlush_frame {d : Ssd1306} (h : ShadowTrue d) (p : LoopPass) (fb : OledFb) :
    ShadowTrue (passFlush d p fb) ∧ (PagesTaken p.turns → (passFlush d p fb).panel = p.frame) := by
  have hframe : p.frame = (loopFrame p.borderUntilMs p.now fb p.r).1.pages :=
    congrArg (fun out : OledFb × Bool => out.1.pages) (loopFrame_fb _ _ _ _ _)
  unfold passFlush
  rcases ssd1306Flush_cases h (loopFrame p.borderUntilMs p.now fb p.r).1 p.turns with
    ⟨hsent, hshown, hkept⟩ | ⟨hfailed, -⟩
  · dsimp only
    rw [if_pos hsent]
    exact ⟨hkept, fun _ => hshown.trans hframe.symm⟩
  · refine ⟨?_, fun htaken => ?_⟩
    · dsimp only
      rw [hfailed, if_neg Bool.false_ne_true]
      exact fun hv => by cases hv
    · rw [ssd1306Flush_taken htaken] at hfailed
      cases hfailed

/-- The pass in terms of what is seen: it sets the glass right if the bus refuses it nothing, and
keeps a panel it does not want on as it is or dark. -/
theorem panelPass_true {s : MainPanel} (h : PanelTrue s) {p : LoopPass} (hp : p.power.Honest) :
    PanelTrue (panelPass s p) ∧
      (p.wants = true → (panelPass s p).driver = passFlush s.driver p s.fb ∧
        (s.panelOn = true ∨ p.power.ack = true → (panelPass s p).lit = true)) ∧
      (p.wants = false → (panelPass s p).driver = s.driver ∧
        ((panelPass s p).lit = true ↔ s.lit = true ∧ p.power.ack = false)) := by
  have hstep := panelPass_step h.answers p
  generalize panelPass s p = s' at hstep ⊢
  cases hstep with
  | stays fb hw hon =>
    refine ⟨⟨h.answers, (passFlush_frame h.shadow p s.fb).1, h.lit_flag⟩, fun _ => ⟨rfl, fun _ => ?_⟩, ?_⟩
    · exact h.lit_flag.trans hon
    · rw [hw]
      nofun
  | lights fb hw hon =>
    have hlit : (if p.power.ack || p.power.took then true else s.lit) = p.power.ack := by
      rw [h.lit_flag, hon]
      cases hack : p.power.ack with
      | true => rfl
      | false => simp [hp hack]
    refine ⟨⟨h.answers, (passFlush_frame h.shadow p s.fb).1, hlit⟩, fun _ => ⟨rfl, ?_⟩, ?_⟩
    · rintro (hon' | hack)
      · rw [hon] at hon'
        cases hon'
      · exact hlit.trans hack
    · rw [hw]
      nofun
  | darkens fb hw hon =>
    have hlit : (if p.power.ack || p.power.took then false else s.lit) = !p.power.ack := by
      rw [h.lit_flag, hon]
      cases hack : p.power.ack with
      | true => rfl
      | false => simp [hp hack]
    refine ⟨⟨h.answers, h.shadow, hlit⟩, ?_, fun _ => ⟨rfl, ?_⟩⟩
    · rw [hw]
      nofun
    · rw [hlit, h.lit_flag, hon]
      simp
  | rests fb hw hon =>
    have hdark : s.lit = false := h.lit_flag.trans hon
    refine ⟨⟨h.answers, h.shadow, h.lit_flag⟩, ?_, fun _ => ⟨rfl, ?_⟩⟩
    · rw [hw]
      nofun
    · simp [hdark]

/-- The panel answers at power-up, its flush apart, and is switched off. -/
structure PanelBoot.Answers (b : PanelBoot) : Prop where
  added : b.addAck = true
  brought : b.seqAck = true
  off : b.power.ack = true

theorem panelBoot_true {b : PanelBoot} (hb : b.Answers) (fb : OledFb) :
    PanelTrue (panelBoot b fb) ∧ (panelBoot b fb).lit = false := by
  have hinit : ssd1306Init b.driver b.addAck b.seqAck = ({ b.driver with shadowValid := false }, true) := by
    simp [ssd1306Init, hb.added, hb.brought]
  have hfresh : ShadowTrue { b.driver with shadowValid := false } := nofun
  have hdark : (panelBoot b fb).lit = false := by
    simp [panelBoot, hinit, mainPower, hb.off]
  unfold panelBoot at hdark ⊢
  rw [hinit] at hdark ⊢
  exact ⟨⟨rfl, panelCall_shadow hfresh (.flush (oledFbClear fb) b.turns), hdark⟩, hdark⟩

theorem passRun_concat (b : PanelBoot) (fb : OledFb) (ps : List LoopPass) (p : LoopPass) :
    passRun b fb (ps ++ [p]) = panelPass (passRun b fb ps) p := exec_concat _ _ _ _

theorem passRun_true {b : PanelBoot} (hb : b.Answers) (fb : OledFb) {ps : List LoopPass}
    (hps : ∀ p ∈ ps, p.power.Honest) : PanelTrue (passRun b fb ps) := by
  refine exec_induction (fun q hq h => (panelPass_true h ?_).1) (panelBoot_true hb fb).1
  have hmem : q.2 ∈ (trace panelPass (panelBoot b fb) ps).map Prod.snd := List.mem_map_of_mem hq
  exact hps q.2 (trace_map_snd panelPass _ ps ▸ hmem)

/-- Passes that do not want the panel leave its memory, and end the light with the first that gets
through. -/
theorem passRun_idle {b : PanelBoot} (hb : b.Answers) (fb : OledFb) {ps idle : List LoopPass}
    (hps : ∀ p ∈ ps ++ idle, p.power.Honest) (hidle : ∀ p ∈ idle, p.wants = false) :
    (passRun b fb (ps ++ idle)).driver = (passRun b fb ps).driver ∧
      ((passRun b fb (ps ++ idle)).lit = true ↔
        (passRun b fb ps).lit = true ∧ ∀ p ∈ idle, p.power.ack = false) := by
  induction idle using List.reverseRecOn with
  | nil => simp
  | append_singleton idle p ih =>
    rw [← List.append_assoc] at hps ⊢
    have hp : p.wants = false := hidle p (by simp)
    obtain ⟨hdriver, hlit⟩ := ih (fun q hq => hps q (List.mem_append_left _ hq))
      (fun q hq => hidle q (List.mem_append_left _ hq))
    have htrue := @passRun_true b hb fb (ps ++ idle) fun q hq => hps q (List.mem_append_left _ hq)
    obtain ⟨hkept, hdark⟩ := (panelPass_true htrue (hps p (by simp))).2.2 hp
    rw [passRun_concat]
    refine ⟨hkept.trans hdriver, hdark.trans ?_⟩
    rw [hlit, and_assoc]
    refine and_congr_right fun _ => ?_
    simp [or_imp, forall_and]

/-- What the passes of a run leave to be seen: nothing before one wants the panel, and then the frame
of the last that did, until a pass that does not gets its power command through. -/
structure GlassOf (ps : List LoopPass) (glass : Option PanelMem) : Prop where
  unwanted : (∀ p ∈ ps, p.wants = false) → glass = none
  shown : ∀ before w idle, ps = before ++ w :: idle → w.wants = true → (∀ p ∈ idle, p.wants = false) →
    ∀ m, glass = some m → (PagesTaken w.turns → m = w.frame) ∧ ∀ p ∈ idle, p.power.ack = false
  lit : ∀ before w idle, ps = before ++ w :: idle → w.wants = true → (∀ p ∈ idle, p.wants = false) →
    PagesTaken w.turns → w.power.ack = true → (∀ p ∈ idle, p.power.ack = false) → glass = some w.frame

/-- A run up to a pass that wants the panel, and what the passes behind it change. -/
theorem passRun_wanted {b : PanelBoot} (hb : b.Answers) (fb : OledFb) {before idle : List LoopPass}
    {w : LoopPass} (hps : ∀ p ∈ before ++ w :: idle, p.power.Honest) (hw : w.wants = true)
    (hidle : ∀ p ∈ idle, p.wants = false) :
    (PagesTaken w.turns → (passRun b fb (before ++ w :: idle)).driver.panel = w.frame) ∧
      ((passRun b fb (before ++ w :: idle)).lit = true → ∀ p ∈ idle, p.power.ack = false) ∧
      (w.power.ack = true → (∀ p ∈ idle, p.power.ack = false) →
        (passRun b fb (before ++ w :: idle)).lit = true) := by
  rw [List.append_cons] at hps ⊢
  have htrue := @passRun_true b hb fb before fun q hq => hps q (by simp [hq])
  obtain ⟨-, hwanted, -⟩ := panelPass_true htrue (hps w (by simp))
  obtain ⟨hflushed, hon⟩ := hwanted hw
  obtain ⟨hdriver, hlit⟩ := passRun_idle hb fb hps hidle
  rw [passRun_concat] at hdriver hlit
  refine ⟨fun htaken => ?_, fun h => (hlit.mp h).2, fun hack hrefused => ?_⟩
  · rw [hdriver, hflushed]
    exact (passFlush_frame htrue.shadow w _).2 htaken
  · exact hlit.mpr ⟨hon (Or.inr hack), hrefused⟩

theorem passRun_glass {b : PanelBoot} (hb : b.Answers) (fb : OledFb) {ps : List LoopPass}
    (hps : ∀ p ∈ ps, p.power.Honest) : GlassOf ps (passRun b fb ps).glass where
  unwanted hnone := by
    have hlit := (@passRun_idle b hb fb [] ps hps hnone).2
    have hdark : (passRun b fb ps).lit = false := by
      rw [List.nil_append] at hlit
      rw [Bool.eq_false_iff, ne_eq, hlit, passRun, exec_nil, (panelBoot_true hb fb).2]
      exact fun h => Bool.false_ne_true h.1
    rw [MainPanel.glass, hdark]
    rfl
  shown before w idle hsplit hw hidle m hm := by
    subst hsplit
    obtain ⟨hframe, hrefused, -⟩ := passRun_wanted hb fb hps hw hidle
    rw [MainPanel.glass, Option.ite_none_right_eq_some, Option.some.injEq] at hm
    exact ⟨fun htaken => hm.2.symm.trans (hframe htaken), hrefused hm.1⟩
  lit before w idle hsplit hw hidle htaken hack hrefused := by
    subst hsplit
    obtain ⟨hframe, -, hlit⟩ := passRun_wanted hb fb hps hw hidle
    rw [MainPanel.glass, if_pos (hlit hack hrefused), hframe htaken]

end GateAccess

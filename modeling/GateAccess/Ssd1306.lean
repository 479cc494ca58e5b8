import GateAccess.OledFb
import GateAccess.Traces

namespace GateAccess

/-- The panel's memory, eight pages of 128 columns. -/
abbrev PanelMem := Fin oledPages → Fin oledW → UInt8

def OledFb.pages (fb : OledFb) : PanelMem := fun p x =>
  fb.buf ⟨p.val * oledW + x.val, by
    have hp := p.isLt
    have hx := x.isLt
    simp only [oledW, oledH, oledPages] at *
    omega⟩

/-- `memcmp` of one page of two frames. -/
def pageChanged (prev next : OledFb) (p : Fin oledPages) : Bool :=
  (List.finRange oledW).any fun x => prev.pages p x ≠ next.pages p x

def oledFbDirtyPages (prev next : OledFb) : UInt8 :=
  (List.finRange oledPages).foldl
    (fun mask p => if pageChanged prev next p then mask ||| 1 <<< UInt8.ofNat p.val else mask) 0

/-- The driver's copy of the frame sent last, with the panel at the other end of the bus. -/
structure Ssd1306 where
  shadow : OledFb
  shadowValid : Bool
  panel : PanelMem

/-- How the bus answers the two transfers of a page, and what the page holds when one has failed. -/
structure PageTransfer where
  addrAck : Bool
  dataAck : Bool
  left : Fin oledW → UInt8

def ssd1306Init (d : Ssd1306) (addAck seqAck : Bool) : Ssd1306 × Bool :=
  if !addAck then (d, false)
  else if !seqAck then (d, false)
  else ({ d with shadowValid := false }, true)

def flushPage (panel : PanelMem) (fb : OledFb) (p : Fin oledPages) (turn : PageTransfer) :
    PanelMem × Bool :=
  if !turn.addrAck then (Function.update panel p turn.left, false)
  else if !turn.dataAck then (Function.update panel p turn.left, false)
  else (Function.update panel p (fb.pages p), true)

/-- The loop of `ssd1306_flush`, over the pages still to come. -/
def flushLoop (fb : OledFb) (dirty : UInt8) (turns : Fin oledPages → PageTransfer) :
    List (Fin oledPages) → PanelMem → PanelMem × Bool
  | [], panel => (panel, true)
  | p :: ps, panel =>
    if dirty >>> UInt8.ofNat p.val &&& 1 ≠ 0 then
      let out := flushPage panel fb p (turns p)
      if out.2 then flushLoop fb dirty turns ps out.1 else (out.1, false)
    else flushLoop fb dirty turns ps panel

/-- The flag says `ESP_OK`. -/
def ssd1306Flush (d : Ssd1306) (fb : OledFb) (turns : Fin oledPages → PageTransfer) :
    Ssd1306 × Bool :=
  let dirty := if d.shadowValid then oledFbDirtyPages d.shadow fb else 0xFF
  if dirty = 0 then (d, true)
  else
    let out := flushLoop fb dirty turns (List.finRange oledPages) d.panel
    -- the panel may now hold a half-written frame
    if !out.2 then ({ d with shadowValid := false, panel := out.1 }, false)
    else (⟨fb, true, out.1⟩, true)

def ssd1306Invalidate (d : Ssd1306) : Ssd1306 := { d with shadowValid := false }

/-- Pixels off or on; the panel's memory stays. -/
def ssd1306Power (d : Ssd1306) (_on ack : Bool) : Ssd1306 × Bool := (d, ack)

inductive PanelCall
  | flush (fb : OledFb) (turns : Fin oledPages → PageTransfer)
  | invalidate
  | power (on ack : Bool)

def panelCall (d : Ssd1306) : PanelCall → Ssd1306
  | .flush fb turns => (ssd1306Flush d fb turns).1
  | .invalidate => ssd1306Invalidate d
  | .power on ack => (ssd1306Power d on ack).1

/-- A driver brought up on a panel that holds anything, after these calls. -/
def panelAfter (d : Ssd1306) (calls : List PanelCall) : Ssd1306 :=
  exec panelCall (ssd1306Init d true true).1 calls

theorem pageChanged_iff {prev next : OledFb} {p : Fin oledPages} :
    pageChanged prev next p = false ↔ prev.pages p = next.pages p := by
  rw [pageChanged, List.any_eq_false, funext_iff]
  constructor
  · intro h x
    simpa using h x (List.mem_finRange x)
  · intro h x _
    simpa using h x

theorem dirtyPages_bit (prev next : OledFb) (q : Fin oledPages) :
    (oledFbDirtyPages prev next).toNat.testBit q.val = pageChanged prev next q := by
  have hloop : ∀ (ps : List (Fin oledPages)) (mask : UInt8),
      (ps.foldl (fun mask p => if pageChanged prev next p then mask ||| 1 <<< UInt8.ofNat p.val
        else mask) mask).toNat.testBit q.val =
        (mask.toNat.testBit q.val || (decide (q ∈ ps) && pageChanged prev next q)) := by
    intro ps
    induction ps with
    | nil => simp
    | cons p ps ih =>
      intro mask
      rw [List.foldl_cons, ih]
      by_cases hp : pageChanged prev next p = true
      · rw [if_pos hp, UInt8.toNat_or, Nat.testBit_or, mask_bit p.isLt]
        by_cases hpq : p = q
        · subst hpq
          simp [hp]
        · have hval : ¬p.val = q.val := fun h => hpq (Fin.ext h)
          simp [hval, Ne.symm hpq]
      · rw [if_neg hp]
        by_cases hpq : p = q
        · subst hpq
          simp [hp]
        · simp [Ne.symm hpq]
  rw [oledFbDirtyPages, hloop]
  simp

/-- A loop that reports success has sent the dirty pages and left the others. -/
theorem flushLoop_ok {fb : OledFb} {dirty : UInt8} {turns : Fin oledPages → PageTransfer}
    {ps : List (Fin oledPages)} {panel : PanelMem}
    (h : (flushLoop fb dirty turns ps panel).2 = true) (q : Fin oledPages) :
    (flushLoop fb dirty turns ps panel).1 q = fb.pages q ∨
      (¬(q ∈ ps ∧ dirty.toNat.testBit q.val = true) ∧
        (flushLoop fb dirty turns ps panel).1 q = panel q) := by
  induction ps generalizing panel with
  | nil => exact Or.inr ⟨fun hmem => List.not_mem_nil hmem.1, rfl⟩
  | cons p ps ih =>
    rw [flushLoop] at h ⊢
    by_cases hp : dirty >>> UInt8.ofNat p.val &&& 1 ≠ 0
    · rw [if_pos hp] at h ⊢
      dsimp only at h ⊢
      by_cases hsent : (flushPage panel fb p (turns p)).2 = true
      · have hstored : (flushPage panel fb p (turns p)).1 = Function.update panel p (fb.pages p) := by
          revert hsent
          unfold flushPage
          cases (turns p).addrAck <;> cases (turns p).dataAck <;> simp
        rw [if_pos hsent] at h ⊢
        rcases ih h with hshown | ⟨hkept, hpanel⟩
        · exact Or.inl hshown
        · rw [hpanel, hstored]
          by_cases hpq : q = p
          · exact Or.inl (by rw [hpq, Function.update_self])
          · refine Or.inr ⟨fun hmem => hkept ⟨?_, hmem.2⟩, Function.update_of_ne hpq _ _⟩
            exact List.mem_of_ne_of_mem hpq hmem.1
      · rw [if_neg hsent] at h
        cases h
    · have hbit : ¬dirty.toNat.testBit p.val = true := fun hb => hp ((bit_read p.isLt).mpr hb)
      rw [if_neg hp] at h ⊢
      rcases ih h with hshown | ⟨hkept, hpanel⟩
      · exact Or.inl hshown
      · refine Or.inr ⟨fun hmem => ?_, hpanel⟩
        rcases List.mem_cons.mp hmem.1 with rfl | hmem'
        · exact hbit hmem.2
        · exact hkept ⟨hmem', hmem.2⟩

/-- A valid copy is what the panel shows. -/
def ShadowTrue (d : Ssd1306) : Prop := d.shadowValid = true → d.panel = d.shadow.pages

theorem allDirty_bit (q : Fin oledPages) : (0xFF : UInt8).toNat.testBit q.val = true := by
  revert q
  decide

/-- A flush that reports success shows its frame, and its copy is right; one that fails forgets the
copy. -/
theorem ssd1306Flush_cases {d : Ssd1306} (h : ShadowTrue d) (fb : OledFb)
    (turns : Fin oledPages → PageTransfer) :
    ((ssd1306Flush d fb turns).2 = true ∧ (ssd1306Flush d fb turns).1.panel = fb.pages ∧
      ShadowTrue (ssd1306Flush d fb turns).1) ∨
    ((ssd1306Flush d fb turns).2 = false ∧ (ssd1306Flush d fb turns).1.shadowValid = false) := by
  have hclean : ∀ q, (if d.shadowValid then oledFbDirtyPages d.shadow fb else 0xFF).toNat.testBit
      q.val = false → d.panel q = fb.pages q := by
    intro q hq
    cases hv : d.shadowValid with
    | false =>
      rw [hv, if_neg (by decide), allDirty_bit] at hq
      cases hq
    | true =>
      rw [hv, if_pos rfl, dirtyPages_bit, pageChanged_iff] at hq
      rw [h hv, hq]
  unfold ssd1306Flush
  generalize (if d.shadowValid then oledFbDirtyPages d.shadow fb else 0xFF) = dirty at hclean ⊢
  dsimp only
  by_cases hnone : dirty = 0
  · have hall : d.panel = fb.pages := funext fun q => hclean q (by rw [hnone]; simp)
    rw [if_pos hnone]
    exact .inl ⟨rfl, hall, h⟩
  · rw [if_neg hnone]
    cases hok : (flushLoop fb dirty turns (List.finRange oledPages) d.panel).2 with
    | false => exact .inr ⟨rfl, rfl⟩
    | true =>
      have hall : (flushLoop fb dirty turns (List.finRange oledPages) d.panel).1 = fb.pages := by
        funext q
        rcases flushLoop_ok hok q with hshown | ⟨hkept, hpanel⟩
        · exact hshown
        · rw [hpanel]
          refine hclean q ?_
          simpa using hkept
      exact .inl ⟨rfl, hall, fun _ => hall⟩

theorem panelCall_shadow {d : Ssd1306} (h : ShadowTrue d) (call : PanelCall) :
    ShadowTrue (panelCall d call) := by
  cases call with
  | flush fb turns =>
    rcases ssd1306Flush_cases h fb turns with ⟨-, -, hkept⟩ | ⟨-, hforgot⟩
    · exact hkept
    · intro hv
      rw [panelCall, hforgot] at hv
      cases hv
  | invalidate => exact fun hv => by cases hv
  | power on ack => exact h

theorem panelAfter_shadow (d : Ssd1306) (calls : List PanelCall) : ShadowTrue (panelAfter d calls) :=
  exec_invariant (I := ShadowTrue) (fun _ call h => panelCall_shadow h call) (fun hv => by cases hv) calls

/-- Whenever a flush reports success the panel shows its frame. -/
theorem flush_shows_frame (d : Ssd1306) (calls : List PanelCall) (fb : OledFb)
    (turns : Fin oledPages → PageTransfer)
    (hok : (ssd1306Flush (panelAfter d calls) fb turns).2 = true) :
    (ssd1306Flush (panelAfter d calls) fb turns).1.panel = fb.pages := by
  rcases ssd1306Flush_cases (panelAfter_shadow d calls) fb turns with ⟨-, hshown, -⟩ | ⟨hfailed, -⟩
  · exact hshown
  · rw [hfailed] at hok
    cases hok

def plainFb (byte : UInt8) : OledFb := ⟨fun _ => byte⟩

/-- A panel of noise. -/
def noisePanel : Ssd1306 := ⟨plainFb 0, true, fun p x => UInt8.ofNat (p.val * 31 + x.val * 7)⟩

def turnsBut (failing : Option Nat) : Fin oledPages → PageTransfer := fun p =>
  ⟨true, failing ≠ some p.val, fun _ => 0x55⟩

/-- The flush behind one that broke off at the fourth page. -/
theorem flush_shows_frame_retry :
    (ssd1306Flush (panelAfter noisePanel [.flush (plainFb 0) (turnsBut (some 3)), .power true true])
      (plainFb 0xFF) (turnsBut none)).1.panel = (plainFb 0xFF).pages :=
  flush_shows_frame noisePanel [.flush (plainFb 0) (turnsBut (some 3)), .power true true] (plainFb 0xFF)
    (turnsBut none) (by decide)

end GateAccess

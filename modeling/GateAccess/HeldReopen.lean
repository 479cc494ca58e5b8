import GateAccess.HoldToOpen

namespace GateAccess

/-- The last sample of the button in a run; before the first it counts as up. -/
def lastSample (calls : List ProvCall) : Bool :=
  calls.foldl (fun down call => match call with
    | .button sample _ => sample
    | _ => down) false

/-- A session that ends while the button is down is followed by no opening before a release. -/
def NoReopening (calls : List ProvCall) : Prop :=
  ∀ first last mid next rest, calls = first ++ last :: (mid ++ next :: rest) →
    (provRun first).state = .opened → (provRun (first ++ [last])).state = .closed →
    lastSample (first ++ [last]) = true → (∀ t, .button false t ∉ mid) →
    (provCall (provRun (first ++ last :: mid)) next).2 ≠ .openAp

/-- A press that begins while a session is open and is held past its end, and on until a sample
finds it five seconds long. -/
def OutlivesSession (calls : List ProvCall) : Prop :=
  ∃ first s hold last mid t rest,
    calls = (first ++ .button true s :: hold) ++ last :: (mid ++ .button true t :: rest) ∧
    Pressed first s (hold ++ last :: mid) ∧
    NoOpening (provRun first) (.button true s :: (hold ++ last :: mid)) ∧
    (provRun (first ++ .button true s :: hold)).state = .opened ∧
    (provRun (first ++ .button true s :: hold ++ [last])).state = .closed ∧
    provHoldMs ≤ UInt32.ofNat t - UInt32.ofNat s

theorem lastSample_eq (calls : List ProvCall) : lastSample calls = (provRun calls).buttonDown := by
  induction calls using List.reverseRecOn with
  | nil => rfl
  | append_singleton calls call ih =>
    rw [provRun, exec_concat, lastSample, List.foldl_append, List.foldl_cons, List.foldl_nil]
    by_cases hbutton : ∃ down t, call = .button down t
    · obtain ⟨down, t, rfl⟩ := hbutton
      cases down with
      | false => rfl
      | true =>
        cases hdown : (provRun calls).buttonDown with
        | true => exact (provCall_held hdown (by simp)).1.symm
        | false => rw [(provStep_pressed hdown t).1]
    · have hs := provCall_button (provRun calls) call
      change _ = (provCall (provRun calls) call).1.buttonDown
      generalize provCall (provRun calls) call = out at hs ⊢
      cases hs with
      | kept _ _ _ hsame =>
        rw [hsame, ← ih]
        cases call with
        | button down t => exact absurd ⟨down, t, rfl⟩ hbutton
        | tick t | login ok | close | logout => rfl
      | released t _ hcall => exact absurd ⟨_, t, hcall⟩ hbutton
      | pressed t _ hcall => exact absurd ⟨_, t, hcall⟩ hbutton
      | opened t _ hcall => exact absurd ⟨_, t, hcall⟩ hbutton

theorem provButton_open {ctx : ProvCtx} (h : ctx.state = .opened) (down : Bool) (t : Nat) :
    (provStep ctx (.button down t)).state = .opened := by
  simp only [provStep, provCall, provButton]
  split_ifs <;> simp [h]

theorem provButton_opens {ctx : ProvCtx} {t : Nat} (hdown : ctx.buttonDown = true)
    (hgood : ctx.buttonConsumed = false) (hclosed : ctx.state = .closed)
    (hheld : provHoldMs ≤ UInt32.ofNat t - ctx.buttonDownMs) :
    (provCall ctx (.button true t)).2 = .openAp := by
  have hlong : ¬UInt32.ofNat t - ctx.buttonDownMs < provHoldMs := UInt32.not_lt.mpr hheld
  simp [provCall, provButton, hdown, hgood, hclosed, hlong]

theorem NoOpening.closed {ctx : ProvCtx} {calls : List ProvCall} (h : NoOpening ctx calls)
    (hclosed : ctx.state = .closed) : (exec provStep ctx calls).state = .closed := by
  cases hend : (exec provStep ctx calls).state with
  | closed => rfl
  | opened =>
    rw [(opened_since h hend).1] at hclosed
    cases hclosed

/-- The two halves of a run that a session end splits. -/
theorem provRun_split {first mid : List ProvCall} {last : ProvCall} :
    provRun (first ++ last :: mid) = exec provStep (provRun (first ++ [last])) mid :=
  exec_split _ _ _ _ _

/-- Such a press opens a second session, and only such a press does. -/
theorem session_end_no_reopen_iff (calls : List ProvCall) :
    NoReopening calls ↔ ¬OutlivesSession calls := by
  constructor
  · rintro hno ⟨first, s, hold, last, mid, t, rest, rfl, hpress, hnone, hopen, hclosed, hheld⟩
    have hbefore : Pressed first s (hold ++ [last]) :=
      ⟨hpress.up, fun u hu => hpress.held u (by simp at hu ⊢; tauto)⟩
    have hsample : lastSample (first ++ .button true s :: hold ++ [last]) = true := by
      rw [lastSample_eq, List.append_assoc, List.cons_append]
      exact hbefore.state.1
    refine hno (first ++ .button true s :: hold) last mid (.button true t) rest rfl hopen hclosed
      hsample (fun u hu => hpress.held u (by simp [hu])) ?_
    have hcalls : .button true s :: (hold ++ last :: mid) = (.button true s :: hold ++ [last]) ++ mid := by
      simp
    obtain ⟨hdown, hms, hgood⟩ := hpress.state
    have hend : (provRun ((first ++ .button true s :: hold) ++ last :: mid)).state = .closed := by
      rw [hcalls] at hnone
      rw [provRun_split]
      refine NoOpening.closed ?_ hclosed
      have hmid := hnone.split.2
      rwa [← exec_append, ← List.append_assoc] at hmid
    rw [← List.cons_append, ← List.append_assoc] at hdown hms
    rw [← List.cons_append, ← List.append_assoc, List.cons_append] at hgood
    exact provButton_opens hdown (hgood.mpr hnone) hend (by rwa [hms])
  · rintro hpress first last mid next rest rfl hopen hclosed hsample hmid hreopens
    obtain ⟨t, rfl, -, -, hgood, hheld, -⟩ := provCall_opened hreopens
    have hbutton : ∀ down u, last ≠ .button down u := by
      rintro down u rfl
      rw [provRun, exec_concat, provButton_open hopen] at hclosed
      cases hclosed
    have hdown : (provRun first).buttonDown = true := by
      rw [← lastSample_eq]
      rw [lastSample, List.foldl_append, List.foldl_cons, List.foldl_nil] at hsample
      cases last with
      | button down u => exact absurd rfl (hbutton down u)
      | tick u | login ok | close | logout => exact hsample
    obtain ⟨start, s, hold, rfl, hheldFrom⟩ := pressed_exists hdown
    have hlong : Pressed start s (hold ++ last :: mid) := by
      refine ⟨hheldFrom.up, fun u hu => ?_⟩
      rcases List.mem_append.mp hu with hu | hu
      · exact hheldFrom.held u hu
      · rcases List.mem_cons.mp hu with hu | hu
        · exact hbutton false u hu.symm
        · exact hmid u hu
    obtain ⟨-, hms, hnone⟩ := hlong.state
    rw [List.append_assoc, List.cons_append] at hheld hgood
    rw [hms] at hheld
    exact hpress ⟨start, s, hold, last, mid, t, rest, rfl, hlong, hnone.mp hgood, hopen, hclosed, hheld⟩

/-- The button is let go and pressed again while the session runs, and held through its end. -/
def heldThroughTimeout : List ProvCall :=
  [.button true 0, .button true 5000, .button false 6000, .button true 299000, .tick 305000,
    .button true 305050]

theorem session_reopens_while_held : ¬NoReopening heldThroughTimeout := by
  intro h
  refine h [.button true 0, .button true 5000, .button false 6000, .button true 299000] (.tick 305000)
    [] (.button true 305050) [] rfl (by decide +kernel) (by decide +kernel) (by decide +kernel)
    (by simp) (by decide +kernel)

end GateAccess

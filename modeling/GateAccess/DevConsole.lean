import GateAccess.PersistStore
import GateAccess.Traces

namespace GateAccess

/-- `%0<w>u` and `%0<w>x`: the digits of a number, padded with zeros on the left. -/
def paddedDigits (base width n : Nat) : List UInt8 :=
  ((Nat.toDigits base n).map fun c => UInt8.ofNat c.toNat).leftpad width 48

def devId (n : UInt32) : List UInt8 :=
  (ascii "dev" ++ paddedDigits 10 5 n.toNat).take (acIdLen - 1)

/-- The id of a code stored from the console, made from the clock. -/
def storedId (now : Int) : List UInt8 :=
  (ascii "t" ++ paddedDigits 16 7 (now % 2 ^ 28).toNat).take (acIdLen - 1)

structure ConsoleState where
  ac : AcCtx
  eeprom : Eeprom
  devCodes : UInt32

variable (hash : List UInt8 → Bytes acHashLen)

def addCode (s : ConsoleState) (code : List UInt8) (seconds : Int) (persistent : Bool) (now : Int) :
    ConsoleState × Option (Fin acMaxSlots) :=
  if !acFormatValid code then (s, none)
  else if !s.ac.clockTrusted then (s, none)
  else if persistent then
    let put := acUpsert s.ac (storedId now) (hash (cstr code ++ [0])) (now - 60) (now + seconds)
    ({ s with ac := put.1 }, put.2)
  else
    let put := acUpsertTransient s.ac (devId (s.devCodes + 1)) (hash (cstr code ++ [0])) (now - 60)
      (now + seconds)
    ({ s with ac := put.1, devCodes := s.devCodes + 1 }, put.2)

def codeAdd (s : ConsoleState) (code : List UInt8) (minutes now : Int) : ConsoleState :=
  let minutes := if minutes ≤ 0 ∨ minutes > 15 then 15 else minutes
  (addCode hash s code (minutes * 60) false now).1

def persistSeconds (hours : Int) : Int :=
  (if hours ≤ 0 ∨ hours > 24 * 30 then 24 else hours) * 3600

def codePersist (s : ConsoleState) (code : List UInt8) (hours now : Int) : ConsoleState :=
  let added := addCode hash s code (persistSeconds hours) true now
  match added.2 with
  | none => added.1
  | some slot => { added.1 with eeprom := persistCodesSave added.1.ac added.1.eeprom slot }

def codeDel (s : ConsoleState) (id : List UInt8) (yes : Bool) : ConsoleState :=
  match findById s.ac id with
  | none => s
  | some slot =>
    let wasStored := !(s.ac.slots slot).transient
    if !acIdIsDev id && !yes then s
    else
      let ac := (acRevoke s.ac id).1
      { s with ac := ac, eeprom := if wasStored then persistCodesSave ac s.eeprom slot else s.eeprom }

/-- A code the erase loop passes over: a guest's, unless all are to go. -/
def eraseSkips (all : Bool) (s : AcSlot) : Bool :=
  s.occupied && !s.transient && !acIdIsDev s.id.toList && !all

/-- One pass of the erase loop; every slot it does not skip is cleared and written twice. -/
def eraseSlot (all : Bool) (s : ConsoleState) (i : Fin acMaxSlots) : ConsoleState :=
  if eraseSkips all (s.ac.slots i) then s
  else
    let ac := s.ac.setSlot i .zero
    { s with ac := ac, eeprom := persistCodesSave ac (persistCodesSave ac s.eeprom i) i }

def codeErase (s : ConsoleState) (all yes : Bool) : ConsoleState :=
  if (List.finRange acMaxSlots).all fun i => !((s.ac.slots i).occupied && !(s.ac.slots i).transient)
  then s
  else if !yes then s
  else (List.finRange acMaxSlots).foldl (eraseSlot all) s

/-- `code clear` and `dev off`. -/
def codeClear (s : ConsoleState) : ConsoleState :=
  { s with ac := acRevokeTransient s.ac, devCodes := 0 }

inductive ConsoleCmd
  | add (code : List UInt8) (minutes now : Int)
  | persist (code : List UInt8) (hours now : Int)
  | del (id : List UInt8) (yes : Bool)
  | erase (all yes : Bool)
  | clear

def cmdCode (s : ConsoleState) : ConsoleCmd → ConsoleState
  | .add code minutes now => codeAdd hash s code minutes now
  | .persist code hours now => codePersist hash s code hours now
  | .del id yes => codeDel s id yes
  | .erase all yes => codeErase s all yes
  | .clear => codeClear s

def consoleSlots (s : ConsoleState) : ConsoleCmd → List (Fin acMaxSlots)
  | .add code minutes now =>
    let minutes := if minutes ≤ 0 ∨ minutes > 15 then 15 else minutes
    (addCode hash s code (minutes * 60) false now).2.toList
  | .persist code hours now => (addCode hash s code (persistSeconds hours) true now).2.toList
  | _ => []

/-- The exits of `cmd_code`, with the slots they write a code to. -/
inductive ConsoleStep (s : ConsoleState) :
    ConsoleCmd → ConsoleState → List (Fin acMaxSlots) → Prop
  | refused (cmd n) : ConsoleStep s cmd { s with devCodes := n } []
  | added (code minutes now slot validUntil) : acFormatValid code = true →
      s.ac.clockTrusted = true → slotFor s.ac (devId (s.devCodes + 1)) = some slot →
      ConsoleStep s (.add code minutes now)
        { s with
          ac := s.ac.setSlot slot ⟨true, true, idField (devId (s.devCodes + 1)),
            hash (cstr code ++ [0]), now - 60, validUntil⟩
          devCodes := s.devCodes + 1 } [slot]
  | stored (code hours now slot ac) : acFormatValid code = true → s.ac.clockTrusted = true →
      ac = s.ac.setSlot slot ⟨true, false, idField (storedId now), hash (cstr code ++ [0]),
        now - 60, now + persistSeconds hours⟩ →
      ConsoleStep s (.persist code hours now)
        { s with ac := ac, eeprom := persistCodesSave ac s.eeprom slot } [slot]
  | deleted (id yes slot ac) : ac = s.ac.setSlot slot .zero →
      ConsoleStep s (.del id yes)
        { s with
          ac := ac
          eeprom := if !(s.ac.slots slot).transient then persistCodesSave ac s.eeprom slot
            else s.eeprom } []
  | erased (all yes) :
      ConsoleStep s (.erase all yes) ((List.finRange acMaxSlots).foldl (eraseSlot all) s) []
  | cleared : ConsoleStep s .clear (codeClear s) []

/-- What clearing a slot and writing it twice keeps, the whole erase loop keeps. -/
theorem eraseSlots_keeps {I : ConsoleState → Prop}
    (wipe : ∀ s i, I s → I { s with
      ac := s.ac.setSlot i .zero
      eeprom := persistCodesSave (s.ac.setSlot i .zero)
        (persistCodesSave (s.ac.setSlot i .zero) s.eeprom i) i })
    (all : Bool) (is : List (Fin acMaxSlots)) {s : ConsoleState} (h : I s) :
    I (is.foldl (eraseSlot all) s) := by
  refine exec_invariant (fun s i h => ?_) h is
  unfold eraseSlot
  split
  next => exact h
  next => exact wipe s i h

theorem addCode_stored (s : ConsoleState) (code : List UInt8) (seconds now : Int) :
    addCode hash s code seconds true now = (s, none) ∨
    ∃ slot, acFormatValid code = true ∧ s.ac.clockTrusted = true ∧
      addCode hash s code seconds true now =
        ({ s with ac := s.ac.setSlot slot ⟨true, false, idField (storedId now),
            hash (cstr code ++ [0]), now - 60, now + seconds⟩ }, some slot) := by
  unfold addCode
  split
  next => exact Or.inl rfl
  next hf =>
    split
    next => exact Or.inl rfl
    next hc =>
      simp only [if_true, acUpsert]
      rcases upsert_slotFor s.ac (storedId now) (hash (cstr code ++ [0])) (now - 60) (now + seconds)
        false with hr | ⟨slot, _, _, hw⟩
      · rw [hr]
        exact Or.inl rfl
      · rw [hw]
        exact Or.inr ⟨slot, by simpa using hf, by simpa using hc, rfl⟩

theorem cmdCode_step (s : ConsoleState) (cmd : ConsoleCmd) :
    ConsoleStep hash s cmd (cmdCode hash s cmd) (consoleSlots hash s cmd) := by
  cases cmd with
  | add code minutes now =>
    simp only [cmdCode, codeAdd, consoleSlots, addCode]
    split
    next => exact .refused _ s.devCodes
    next hf =>
      split
      next => exact .refused _ s.devCodes
      next hc =>
        simp only [Bool.false_eq_true, if_false, acUpsertTransient]
        generalize (if now + _ > now - 60 + acTransientMaxS then _ else _ : Int) = validUntil
        rcases upsert_slotFor s.ac (devId (s.devCodes + 1)) (hash (cstr code ++ [0])) (now - 60)
          validUntil true with hr | ⟨slot, hslot, _, hw⟩
        · rw [hr]
          exact .refused _ (s.devCodes + 1)
        · rw [hw]
          exact .added code minutes now slot validUntil (by simpa using hf) (by simpa using hc) hslot
  | persist code hours now =>
    simp only [cmdCode, codePersist, consoleSlots]
    rcases addCode_stored hash s code (persistSeconds hours) now with hr | ⟨slot, hf, hc, hw⟩
    · rw [hr]
      exact .refused _ s.devCodes
    · rw [hw]
      exact .stored code hours now slot _ hf hc rfl
  | del id yes =>
    simp only [cmdCode, codeDel, consoleSlots]
    split
    next => exact .refused _ s.devCodes
    next slot hslot =>
      split
      next => exact .refused _ s.devCodes
      next => exact .deleted id yes slot _ (by rw [acRevoke, hslot])
  | erase all yes =>
    simp only [cmdCode, codeErase, consoleSlots]
    split
    next => exact .refused _ s.devCodes
    next =>
      split
      next => exact .refused _ s.devCodes
      next => exact .erased all yes
  | clear => exact .cleared

end GateAccess

import GateAccess.FirstMax
import GateAccess.PersistCodes
import GateAccess.PowerCuts

namespace GateAccess

abbrev prSlotSize : Nat := 32
abbrev prSlots : Nat := 64
def prMagic : UInt32 := 0x47415445
def prVersion : UInt8 := 1
abbrev prCrcAt : Nat := 18

structure PrState where
  attempts : UInt8
  lockoutUntil : UInt32
  bootCount : UInt32
  deriving DecidableEq

/-- The newest valid record's slot, or none, with its sequence number. -/
structure PrCursor where
  slot : Option (Fin prSlots)
  seq : UInt32
  deriving DecidableEq

abbrev PrImage := Fin prSlots → Bytes prSlotSize

/-- The bytes a record's CRC covers. -/
def prData (s : PrState) (seq : UInt32) : List UInt8 :=
  put32 prMagic ++ (put32 seq ++ (prVersion :: s.attempts ::
    (put32 s.lockoutUntil ++ put32 s.bootCount)))

theorem prData_length (s : PrState) (seq : UInt32) : (prData s seq).length = prCrcAt := by
  simp [prData, put32]

def prEncode (s : PrState) (seq : UInt32) : Bytes prSlotSize :=
  ⟨prData s seq ++ (put16 (crc16 (prData s seq)) ++ List.replicate 12 0xFF), by
    simp [prData_length, put16]⟩

def prDecode (r : Bytes prSlotSize) : Option (PrState × UInt32) :=
  let d := r.toList
  if get32 d ≠ prMagic ∨ d.getD 8 0 ≠ prVersion then none
  else if crc16 (d.take prCrcAt) ≠ get16 (d.drop prCrcAt) then none
  else some (⟨d.getD 9 0, get32 (d.drop 10), get32 (d.drop 14)⟩, get32 (d.drop 4))

structure PrFound where
  slot : Fin prSlots
  state : PrState
  seq : UInt32
  deriving DecidableEq

def prFindStep (image : PrImage) (best : Option PrFound) (i : Fin prSlots) : Option PrFound :=
  match prDecode (image i) with
  | none => best
  | some (st, seq) =>
    match best with
    | none => some ⟨i, st, seq⟩
    | some b => if seq > b.seq then some ⟨i, st, seq⟩ else some b

/-- The state of the newest record, if any, and the cursor at it. -/
def prFindLatest (image : PrImage) : Option PrState × PrCursor :=
  let best := (List.finRange prSlots).foldl (prFindStep image) none
  (best.map PrFound.state, ⟨best.map PrFound.slot, (best.map PrFound.seq).getD 0⟩)

def prAdvance (cur : PrCursor) : Fin prSlots × PrCursor :=
  let next : Fin prSlots :=
    match cur.slot with
    | none => 0
    | some slot => ⟨(slot.val + 1) % prSlots, Nat.mod_lt _ (by decide)⟩
  (next, ⟨some next, cur.seq + 1⟩)

/-- The ring's part of the chip and the statics of `persist_store.c` that describe it. -/
structure PrStore where
  image : PrImage
  cur : PrCursor
  found : Option PrState

def persistInit (image : PrImage) : PrStore :=
  ⟨image, (prFindLatest image).2, (prFindLatest image).1⟩

def persistLoad (store : PrStore) : Option PrState := store.found

/-- The cursor advances only when the write went through. -/
def persistSave (store : PrStore) (s : PrState) (cut : Option Nat) : PrStore :=
  let next := prAdvance store.cur
  let page := prEncode s next.2.seq
  { store with
    image := Function.update store.image next.1 (cutWrite (store.image next.1) page cut)
    cur := if cut = none then next.2 else store.cur }

theorem prDecode_prEncode (s : PrState) (seq : UInt32) :
    prDecode (prEncode s seq) = some (s, seq) := by
  set tail : List UInt8 := put16 (crc16 (prData s seq)) ++ List.replicate 12 0xFF with htail
  have hd : (prEncode s seq).toList = prData s seq ++ tail := rfl
  have htake : (prData s seq ++ tail).take prCrcAt = prData s seq :=
    List.take_left' (prData_length s seq)
  have hdrop : (prData s seq ++ tail).drop prCrcAt = tail := List.drop_left' (prData_length s seq)
  have hcrc : get16 tail = crc16 (prData s seq) := get16_put16 _ _
  have h0 : prData s seq ++ tail = put32 prMagic ++ (prData s seq ++ tail).drop 4 := rfl
  have h4 : (prData s seq ++ tail).drop 4 = put32 seq ++ (prData s seq ++ tail).drop 8 := rfl
  have h10 : (prData s seq ++ tail).drop 10 =
      put32 s.lockoutUntil ++ (prData s seq ++ tail).drop 14 := rfl
  have h14 : (prData s seq ++ tail).drop 14 = put32 s.bootCount ++ tail := rfl
  have hmagic : get32 (prData s seq ++ tail) = prMagic := by rw [h0, get32_put32]
  have hseq : get32 ((prData s seq ++ tail).drop 4) = seq := by rw [h4, get32_put32]
  have hlockout : get32 ((prData s seq ++ tail).drop 10) = s.lockoutUntil := by
    rw [h10, get32_put32]
  have hboot : get32 ((prData s seq ++ tail).drop 14) = s.bootCount := by rw [h14, get32_put32]
  have hversion : (prData s seq ++ tail).getD 8 0 = prVersion := rfl
  have hattempts : (prData s seq ++ tail).getD 9 0 = s.attempts := rfl
  unfold prDecode
  simp only [hd, htake, hdrop, hcrc, hmagic, hseq, hlockout, hboot, hversion, hattempts]
  simp

/-- The valid records of an image, in slot order. -/
def prRecords (image : PrImage) : List PrFound :=
  (List.finRange prSlots).filterMap fun i => (prDecode (image i)).map fun r => ⟨i, r.1, r.2⟩

def PrFound.rank (f : PrFound) : Nat := f.seq.toNat

theorem prFindLatest_eq (image : PrImage) :
    (List.finRange prSlots).foldl (prFindStep image) none = firstMax PrFound.rank (prRecords image) := by
  rw [firstMax, prRecords, List.foldl_filterMap]
  congr 1
  funext best i
  unfold prFindStep
  cases prDecode (image i) with
  | none => rfl
  | some r =>
    cases best with
    | none => rfl
    | some b => rfl

theorem mem_prRecords {image : PrImage} {f : PrFound} :
    f ∈ prRecords image ↔ prDecode (image f.slot) = some (f.state, f.seq) := by
  simp only [prRecords, List.mem_filterMap, List.mem_finRange, true_and, Option.map_eq_some_iff]
  constructor
  · rintro ⟨i, r, hr, rfl⟩
    exact hr
  · intro h
    exact ⟨f.slot, _, h, rfl⟩

end GateAccess

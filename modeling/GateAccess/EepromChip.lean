import GateAccess.AttemptPersist
import GateAccess.PagedMemory
import GateAccess.SlotAtomic

namespace GateAccess

def chipSize : Nat := 4096
def pageSize : Nat := 32
def readChunk : Nat := 256
def pcBase : Nat := 0x800

/-- The chip, and the statics of `persist_store.c`; `attached` for a device handle that is not
NULL. -/
structure PersistChip where
  chip : PagedMemory
  attached : Bool
  cur : PrCursor
  found : Option PrState

def PersistChip.reset (chip : PagedMemory) : PersistChip := ⟨chip, false, ⟨none, 0⟩, none⟩

/-- The flag says whether the chip answers. -/
def persistRawRead (d : PersistChip) (mem : UInt16) (len : Nat) (answers : Bool) :
    Option (List UInt8) :=
  if !d.attached || !answers then none else some (readFrom chipSize d.chip mem.toNat len)

/-- The end of a write: acknowledged, or an error after so many bytes have been taken. -/
abbrev WriteEnd := Option Nat

def takenBytes (buf : List UInt8) : WriteEnd → List UInt8
  | none => buf
  | some k => buf.take k

/-- The flag says whether it succeeds. -/
def persistRawWrite (d : PersistChip) (mem : UInt16) (buf : List UInt8) (ending : WriteEnd) :
    PersistChip × Bool :=
  if !d.attached then (d, false)
  else if buf.length > pageSize then (d, false)
  else
    ({ d with chip := writeFrom pageSize d.chip (mem.toNat % chipSize) (takenBytes buf ending) },
      ending.isNone)

/-- The loop of `persist_init`, from this offset on. -/
def readImage (d : PersistChip) (answers : Nat → Bool) (off : Nat) : Option (List UInt8) :=
  if off < prSlots * prSlotSize then
    match persistRawRead d (UInt16.ofNat off) readChunk (answers off) with
    | none => none
    | some chunk => (readImage d answers (off + readChunk)).map (chunk ++ ·)
  else some []
termination_by prSlots * prSlotSize - off
decreasing_by simp only [readChunk]; omega

/-- The ring's slots in an image of bytes. -/
def imageSlots (image : List UInt8) : PrImage := fun i => fill prSlotSize (image.drop (i * prSlotSize))

/-- `attached` says whether the bus takes the device. -/
def persistInitChip (d : PersistChip) (attached : Bool) (answers : Nat → Bool) : PersistChip × Bool :=
  if !attached then (d, false)
  else
    let d := { d with attached := true }
    match readImage d answers 0 with
    | none => (d, false)
    | some image =>
      let latest := prFindLatest (imageSlots image)
      ({ d with cur := latest.2, found := latest.1 }, true)

def persistSaveChip (d : PersistChip) (s : PrState) (ending : WriteEnd) : PersistChip × Bool :=
  if !d.attached then (d, false)
  else
    let next := prAdvance d.cur
    let written :=
      persistRawWrite d (UInt16.ofNat (next.1 * prSlotSize)) (prEncode s next.2.seq).toList ending
    if written.2 then ({ written.1 with cur := next.2 }, true) else written

def pcOffset (slot half : Nat) : UInt16 :=
  UInt16.ofNat (pcBase + slot * (2 * pcRecSize) + half * pcRecSize)

/-- The two halves in an image of a code slot. -/
def slotHalves (img : List UInt8) : PcSlot :=
  ⟨fill pcRecSize img, fill pcRecSize (img.drop pcRecSize)⟩

/-- A slot that cannot be read is skipped. -/
def persistCodesLoadChip (ctx : AcCtx) (d : PersistChip) (answers : Fin acMaxSlots → Bool) : AcCtx :=
  if !d.attached then ctx
  else
    { ctx with slots := fun i =>
        match persistRawRead d (pcOffset i 0) (2 * pcRecSize) (answers i) with
        | none => ctx.slots i
        | some img =>
          match pcSlotRead (slotHalves img) with
          | none => ctx.slots i
          | some (c, _) => pcApply (ctx.slots i) c }

def persistCodesSaveChip (ctx : AcCtx) (d : PersistChip) (slot : Fin acMaxSlots) (answers : Bool)
    (first second : WriteEnd) : PersistChip × Bool :=
  if (ctx.slots slot).occupied && (ctx.slots slot).transient then (d, true)
  else
    match persistRawRead d (pcOffset slot 0) (2 * pcRecSize) answers with
    | none => (d, false)
    | some img =>
      let next := pcSlotWriteHalf (slotHalves img)
      let rec_ := (pcEncode (recordOf (ctx.slots slot)) next.2).toList
      let start := pcOffset slot next.1.toNat
      let written := persistRawWrite d start (rec_.take pageSize) first
      if written.2 then
        persistRawWrite written.1 (start + UInt16.ofNat pageSize) (rec_.drop pageSize) second
      else written

/-- A boot, with the chip as it was left and the statics gone, or a save. -/
inductive ChipOp
  | boot (attached : Bool) (answers : Nat → Bool)
  | save (s : PrState) (ending : WriteEnd)
  | codesSave (ctx : AcCtx) (slot : Fin acMaxSlots) (answers : Bool) (first second : WriteEnd)

def chipStep (d : PersistChip) : ChipOp → PersistChip
  | .boot attached answers => (persistInitChip (.reset d.chip) attached answers).1
  | .save s ending => (persistSaveChip d s ending).1
  | .codesSave ctx slot answers first second =>
    (persistCodesSaveChip ctx d slot answers first second).1

end GateAccess

import GateAccess.EepromChip

namespace GateAccess

def ringOf (chip : PagedMemory) : PrImage := fun i => block prSlotSize chip (pageSize * i)

def slotsOf (chip : PagedMemory) : Eeprom := fun i =>
  ⟨block pcRecSize chip (pcBase + i * (2 * pcRecSize)),
    block pcRecSize chip (pcBase + i * (2 * pcRecSize) + pcRecSize)⟩

/-- The ring and the code slots as if each had a chip of its own. -/
structure TwoStores where
  attached : Bool
  store : PrStore
  eeprom : Eeprom

def PersistChip.stores (d : PersistChip) : TwoStores :=
  ⟨d.attached, ⟨ringOf d.chip, d.cur, d.found⟩, slotsOf d.chip⟩

/-- Where two page writes leave a record. -/
def recordCut : WriteEnd → WriteEnd → Option Nat
  | some k, _ => some (min k pageSize)
  | none, some k => some (pageSize + k)
  | none, none => none

def storesStep (s : TwoStores) : ChipOp → TwoStores
  | .boot attached answers =>
    let reads := attached && (List.range 8).all fun c => answers (readChunk * c)
    ⟨attached, if reads then persistInit s.store.image else ⟨s.store.image, ⟨none, 0⟩, none⟩,
      s.eeprom⟩
  | .save state ending =>
    if s.attached then { s with store := persistSave s.store state ending } else s
  | .codesSave ctx slot answers first second =>
    if !s.attached || !answers || (ctx.slots slot).occupied && (ctx.slots slot).transient then s
    else
      let saved :=
        pcSlotSave (s.eeprom slot) ⟨recordOf (ctx.slots slot), recordCut first second⟩
      { s with eeprom := Function.update s.eeprom slot saved }

theorem ofNat_toNat16 {n : Nat} (h : n < 65536) : (UInt16.ofNat n).toNat = n := by
  rw [UInt16.toNat_ofNat']
  exact Nat.mod_eq_of_lt h

theorem readImage_chunks {d : PersistChip} (hattached : d.attached = true) (answers : Nat → Bool)
    {n c : Nat} (hn : c + n = 8) :
    readImage d answers (readChunk * c) =
      if (List.range' c n).all fun i => answers (readChunk * i) then
        some (block (readChunk * n) d.chip (readChunk * c)).toList
      else none := by
  induction n generalizing c with
  | zero =>
    rw [readImage, if_neg (by simp only [readChunk, prSlots, prSlotSize]; omega)]
    rfl
  | succ n ih =>
    have hoff : readChunk * c + readChunk = readChunk * (c + 1) := (Nat.mul_succ _ _).symm
    have hmem : (UInt16.ofNat (readChunk * c)).toNat = readChunk * c :=
      ofNat_toNat16 (by simp only [readChunk]; omega)
    rw [readImage, if_pos (by simp only [readChunk, prSlots, prSlotSize]; omega), persistRawRead,
      hattached, hoff, ih (by omega), List.range'_succ, List.all_cons, hmem]
    cases answers (readChunk * c) with
    | false => rfl
    | true =>
      have hread : readFrom chipSize d.chip (readChunk * c) readChunk =
          (block readChunk d.chip (readChunk * c)).toList :=
        readFrom_eq _ (by simp only [readChunk, chipSize]; omega)
      have hblock := block_append readChunk (readChunk * n) d.chip (readChunk * c)
      rw [hoff, Nat.add_comm readChunk, ← Nat.mul_succ] at hblock
      simp only [Bool.not_true, Bool.or_self, Bool.false_eq_true, if_false, Bool.true_and, hread]
      split
      next => simp [hblock]
      next => rfl

theorem block_drop {m n start : Nat} (mem : PagedMemory) {j : Nat} (h : j + n ≤ m) :
    fill n ((block m mem start).toList.drop j) = block n mem (start + j) := by
  apply List.Vector.toList_injective
  have hlen : n ≤ ((block m mem start).toList.drop j).length := by simp; omega
  change ((block m mem start).toList.drop j ++ List.replicate n 0).take n = _
  rw [List.take_append_of_le_length hlen]
  refine List.ext_getElem (by simp; omega) fun i h₁ h₂ => ?_
  rw [List.getElem_take, List.getElem_drop, block_getElem, block_getElem, Nat.add_assoc]

theorem imageSlots_ring (chip : PagedMemory) :
    imageSlots (block (prSlots * prSlotSize) chip 0).toList = ringOf chip := by
  funext i
  have hi := i.isLt
  rw [imageSlots, block_drop chip (by simp only [prSlots, prSlotSize] at hi ⊢; omega), Nat.zero_add,
    Nat.mul_comm]
  rfl

theorem boot_refines (d : PersistChip) (attached : Bool) (answers : Nat → Bool) :
    (chipStep d (.boot attached answers)).stores = storesStep d.stores (.boot attached answers) := by
  cases attached with
  | false => rfl
  | true =>
    have hread : readImage { PersistChip.reset d.chip with attached := true } answers 0 = _ :=
      readImage_chunks (n := 8) (c := 0) rfl answers (by omega)
    have himage := imageSlots_ring d.chip
    simp only [chipStep, persistInitChip, storesStep, Bool.not_true, Bool.false_eq_true, if_false,
      Bool.true_and]
    rw [hread, List.range_eq_range']
    by_cases hall : (List.range' 0 8).all fun i => answers (readChunk * i)
    · rw [if_pos hall, if_pos hall]
      simp only
      rw [show readChunk * 8 = prSlots * prSlotSize from rfl, Nat.mul_zero]
      simp only [PersistChip.reset, himage]
      rfl
    · rw [if_neg hall, if_neg hall]
      rfl

theorem cutWrite_toList {n : Nat} (old new : Bytes n) (k : Nat) :
    (cutWrite old new (some k)).toList = new.toList.take k ++ old.toList.drop k := rfl

theorem taken_length {buf : List UInt8} {ending : WriteEnd} (h : buf.length ≤ pageSize) :
    (takenBytes buf ending).length ≤ pageSize := by
  cases ending with
  | none => exact h
  | some k => exact (List.length_take_le' _ _).trans h

theorem drop_taken {old new : List UInt8} (h : old.length = new.length) (j : Nat) :
    old.drop (new.take j).length = old.drop j := by
  rcases Nat.le_total j new.length with hj | hj
  · rw [List.length_take_of_le hj]
  · rw [List.take_of_length_le hj, List.drop_of_length_le (Nat.le_of_eq h),
      List.drop_of_length_le (by omega)]

/-- What is left of a page when its write ends early. -/
theorem block_taken {k : Nat} (chip : PagedMemory) (new : Bytes pageSize) (ending : WriteEnd) :
    block pageSize (writeFrom pageSize chip (pageSize * k) (takenBytes new.toList ending)) (pageSize * k) =
      cutWrite (block pageSize chip (pageSize * k)) new ending := by
  have hfit : (takenBytes new.toList ending).length ≤ pageSize := taken_length (by simp)
  apply List.Vector.toList_injective
  rw [block_write chip hfit hfit]
  cases ending with
  | none => simp [cutWrite, takenBytes]
  | some j =>
    rw [cutWrite_toList, takenBytes, drop_taken (by simp)]

theorem persistRawWrite_page {d : PersistChip} (hattached : d.attached = true) {mem : UInt16} {k : Nat}
    (hmem : mem.toNat % chipSize = pageSize * k) {buf : List UInt8} (hbuf : buf.length ≤ pageSize)
    (ending : WriteEnd) :
    persistRawWrite d mem buf ending =
      ({ d with chip := writeFrom pageSize d.chip (pageSize * k) (takenBytes buf ending) },
        ending.isNone) := by
  rw [persistRawWrite, if_neg (by simp [hattached]), if_neg (Nat.not_lt.mpr hbuf), hmem]

theorem ringOf_write (chip : PagedMemory) (slot : Fin prSlots) {data : List UInt8}
    (h : data.length ≤ pageSize) :
    ringOf (writeFrom pageSize chip (pageSize * slot) data) = Function.update (ringOf chip) slot
      (block prSlotSize (writeFrom pageSize chip (pageSize * slot) data) (pageSize * slot)) := by
  funext i
  by_cases hi : i = slot
  · rw [hi, Function.update_self]
    rfl
  · rw [Function.update_of_ne hi]
    refine block_write_apart chip h ?_
    have hne : i.val ≠ slot.val := fun heq => hi (Fin.ext heq)
    simp only [pageSize, prSlotSize]
    omega

/-- A page of the ring is none of a code slot, and the other way round. -/
theorem slotsOf_write_ring (chip : PagedMemory) (slot : Fin prSlots) {data : List UInt8}
    (h : data.length ≤ pageSize) :
    slotsOf (writeFrom pageSize chip (pageSize * slot) data) = slotsOf chip := by
  have hslot := slot.isLt
  funext i
  simp only [slotsOf]
  rw [block_write_apart chip h, block_write_apart chip h]
  all_goals
    simp only [pageSize, pcBase, pcRecSize, prSlots] at hslot ⊢
    omega

theorem save_refines (d : PersistChip) (s : PrState) (ending : WriteEnd) :
    (chipStep d (.save s ending)).stores = storesStep d.stores (.save s ending) := by
  obtain ⟨chip, attached, cur, found⟩ := d
  cases attached with
  | false => rfl
  | true =>
    simp only [chipStep, persistSaveChip, storesStep, PersistChip.stores, persistSave, Bool.not_true,
      Bool.false_eq_true, if_false, if_true]
    generalize prAdvance cur = next
    have hslot := next.1.isLt
    have hmem : (UInt16.ofNat (next.1 * prSlotSize)).toNat % chipSize = pageSize * next.1 := by
      rw [ofNat_toNat16 (by simp only [prSlots, prSlotSize] at hslot ⊢; omega)]
      simp only [prSlots, prSlotSize, chipSize, pageSize] at hslot ⊢
      omega
    have hpage : (prEncode s next.2.seq).toList.length ≤ pageSize := by simp [pageSize]
    have hcut := @block_taken next.1 chip (prEncode s next.2.seq) ending
    rw [persistRawWrite_page rfl hmem hpage]
    have hfit : (takenBytes (prEncode s next.2.seq).toList ending).length ≤ pageSize :=
      taken_length hpage
    have hring : ringOf (writeFrom pageSize chip (pageSize * next.1)
        (takenBytes (prEncode s next.2.seq).toList ending)) = Function.update (ringOf chip) next.1
          (cutWrite (ringOf chip next.1) (prEncode s next.2.seq) ending) :=
      (ringOf_write chip next.1 hfit).trans (congrArg _ hcut)
    cases ending with
    | none =>
      simp only [Option.isNone_none, if_true]
      rw [hring, slotsOf_write_ring chip next.1 hfit]
    | some k =>
      simp only [Option.isNone_some, Bool.false_eq_true, if_false, reduceCtorEq]
      rw [hring, slotsOf_write_ring chip next.1 hfit]

/-- The first page of a record alone. -/
theorem block_first {k : Nat} (chip : PagedMemory) (rec_ : Bytes pcRecSize) (j : Nat) :
    block pcRecSize (writeFrom pageSize chip (pageSize * k) ((rec_.toList.take pageSize).take j))
      (pageSize * k) = cutWrite (block pcRecSize chip (pageSize * k)) rec_ (some (min j pageSize)) := by
  have hfit : ((rec_.toList.take pageSize).take j).length ≤ pageSize := by simp
  apply List.Vector.toList_injective
  rw [block_write chip hfit (hfit.trans (by decide)), cutWrite_toList, List.take_take,
    drop_taken (by simp)]

/-- Both of its pages, one after the other. -/
theorem block_both {k : Nat} (chip : PagedMemory) (rec_ : Bytes pcRecSize) (second : WriteEnd) :
    block pcRecSize (writeFrom pageSize (writeFrom pageSize chip (pageSize * k)
      (rec_.toList.take pageSize)) (pageSize * (k + 1)) (takenBytes (rec_.toList.drop pageSize) second))
      (pageSize * k) = cutWrite (block pcRecSize chip (pageSize * k)) rec_ (recordCut none second) := by
  have hfirst : (rec_.toList.take pageSize).length = pageSize := by simp [pageSize, pcRecSize]
  have hsecond : (rec_.toList.drop pageSize).length = pageSize := by simp [pageSize, pcRecSize]
  have hfit : (takenBytes (rec_.toList.drop pageSize) second).length ≤ pageSize :=
    taken_length (Nat.le_of_eq hsecond)
  have hnext : pageSize * k + pageSize = pageSize * (k + 1) := (Nat.mul_succ _ _).symm
  have hsplit : ∀ mem, (block pcRecSize mem (pageSize * k)).toList =
      (block pageSize mem (pageSize * k)).toList ++
        (block pageSize mem (pageSize * (k + 1))).toList := by
    intro mem
    rw [← hnext]
    exact block_append pageSize pageSize mem (pageSize * k)
  apply List.Vector.toList_injective
  rw [hsplit, block_write_apart _ hfit (by simp only [pageSize]; omega),
    block_write chip (Nat.le_of_eq hfirst) (Nat.le_of_eq hfirst), hfirst,
    List.drop_of_length_le (by simp), List.append_nil, block_write _ hfit hfit,
    block_write_apart chip (Nat.le_of_eq hfirst) (by simp only [pageSize]; omega)]
  cases second with
  | none =>
    have hgone : (block pageSize chip (pageSize * (k + 1))).toList.drop pageSize = [] :=
      List.drop_of_length_le (by simp)
    rw [takenBytes, hsecond, hgone, List.append_nil, List.take_append_drop]
    rfl
  | some j =>
    have hold : ((block pcRecSize chip (pageSize * k)).toList).drop (pageSize + j) =
        (block pageSize chip (pageSize * (k + 1))).toList.drop j := by
      rw [hsplit, ← List.drop_drop, List.drop_left' (by simp)]
    rw [recordCut, cutWrite_toList, hold, takenBytes, drop_taken (by simp [hsecond]), List.take_add,
      List.append_assoc]

/-- The first page of a half. -/
def halfPage (slot : Fin acMaxSlots) (second : Bool) : Nat := prSlots + 4 * slot + 2 * second.toNat

/-- A memory that differs in one half of one code slot. -/
structure HalfWritten (chip chip' : PagedMemory) (k : Nat) : Prop where
  apart : ∀ start n, start + n ≤ pageSize * k ∨ pageSize * (k + 2) ≤ start →
    block n chip' start = block n chip start

theorem HalfWritten.ring {chip chip' : PagedMemory} {slot : Fin acMaxSlots} {second : Bool}
    (h : HalfWritten chip chip' (halfPage slot second)) : ringOf chip' = ringOf chip := by
  funext i
  have hi := i.isLt
  refine h.apart _ _ (.inl ?_)
  simp only [halfPage, pageSize, prSlotSize, prSlots] at hi ⊢
  omega

theorem halfPage_start (slot : Fin acMaxSlots) (second : Bool) :
    pageSize * halfPage slot second =
      pcBase + slot * (2 * pcRecSize) + second.toNat * pcRecSize := by
  simp only [halfPage, pageSize, pcBase, pcRecSize, prSlots]
  omega

theorem slotsOf_half (chip : PagedMemory) (slot : Fin acMaxSlots) (second : Bool) :
    (slotsOf chip slot).half second = block pcRecSize chip (pageSize * halfPage slot second) := by
  rw [halfPage_start]
  cases second with
  | false => rfl
  | true => rw [Bool.toNat_true, Nat.one_mul]; rfl

theorem HalfWritten.slots {chip chip' : PagedMemory} {slot : Fin acMaxSlots} {second : Bool}
    (h : HalfWritten chip chip' (halfPage slot second)) :
    slotsOf chip' = Function.update (slotsOf chip) slot ((slotsOf chip slot).put second
      (block pcRecSize chip' (pageSize * halfPage slot second))) := by
  have hhalf := Bool.toNat_le second
  funext i
  by_cases hi : i = slot
  · subst hi
    rw [Function.update_self, halfPage_start]
    cases second with
    | false =>
      have hother := h.apart (pcBase + i * (2 * pcRecSize) + pcRecSize) pcRecSize (.inr (by
        rw [Nat.mul_add, halfPage_start]
        simp only [pageSize, pcRecSize, Bool.toNat_false]
        omega))
      simp only [slotsOf, PcSlot.put, Bool.false_eq_true, if_false, hother, Bool.toNat_false,
        Nat.zero_mul, Nat.add_zero]
    | true =>
      have hother := h.apart (pcBase + i * (2 * pcRecSize)) pcRecSize (.inl (by
        rw [halfPage_start, Bool.toNat_true, Nat.one_mul]))
      simp only [slotsOf, PcSlot.put, if_true, hother, Bool.toNat_true, Nat.one_mul]
  · rw [Function.update_of_ne hi]
    have hne : i.val ≠ slot.val := fun heq => hi (Fin.ext heq)
    simp only [slotsOf]
    rw [h.apart, h.apart]
    all_goals
      simp only [halfPage, pageSize, pcBase, pcRecSize, prSlots]
      omega

theorem slotHalves_read (chip : PagedMemory) (slot : Fin acMaxSlots) :
    slotHalves (readFrom chipSize chip (pcOffset slot 0).toNat (2 * pcRecSize)) = slotsOf chip slot := by
  have hslot := slot.isLt
  have hmem : (pcOffset slot 0).toNat = pcBase + slot * (2 * pcRecSize) := by
    rw [pcOffset, ofNat_toNat16 (by simp only [pcBase, pcRecSize, acMaxSlots] at hslot ⊢; omega)]
    omega
  rw [hmem, readFrom_eq _ (by simp only [pcBase, pcRecSize, acMaxSlots, chipSize] at hslot ⊢; omega),
    slotHalves, block_drop chip (by decide)]
  have hfirst := @block_drop (2 * pcRecSize) pcRecSize (pcBase + slot * (2 * pcRecSize)) chip 0 (by decide)
  rw [List.drop_zero, Nat.add_zero] at hfirst
  rw [hfirst]
  rfl

theorem HalfWritten.write {chip : PagedMemory} {k j : Nat} {data : List UInt8}
    (h : data.length ≤ pageSize) (hk : k ≤ j) (hj : j ≤ k + 1) :
    HalfWritten chip (writeFrom pageSize chip (pageSize * j) data) k where
  apart start n hapart := block_write_apart chip h (by
    simp only [pageSize] at hapart ⊢
    omega)

theorem HalfWritten.trans {a b c : PagedMemory} {k : Nat} (h : HalfWritten a b k)
    (h' : HalfWritten b c k) : HalfWritten a c k where
  apart start n hapart := (h'.apart start n hapart).trans (h.apart start n hapart)

/-- Where the two writes of a record leave the chip. -/
theorem record_written (chip : PagedMemory) (cur : PrCursor) (found : Option PrState) {start : UInt16}
    {k : Nat} (hstart : start.toNat % chipSize = pageSize * k)
    (hnext : (start + UInt16.ofNat pageSize).toNat % chipSize = pageSize * (k + 1))
    (rec_ : Bytes pcRecSize) (first second : WriteEnd) :
    let written := persistRawWrite ⟨chip, true, cur, found⟩ start (rec_.toList.take pageSize) first
    ∃ chip', (if written.2 then persistRawWrite written.1 (start + UInt16.ofNat pageSize)
        (rec_.toList.drop pageSize) second else written).1 = ⟨chip', true, cur, found⟩ ∧
      HalfWritten chip chip' k ∧ block pcRecSize chip' (pageSize * k) =
        cutWrite (block pcRecSize chip (pageSize * k)) rec_ (recordCut first second) := by
  have hfirst : (rec_.toList.take pageSize).length ≤ pageSize := by simp
  have hsecond : (rec_.toList.drop pageSize).length ≤ pageSize := by simp [pageSize, pcRecSize]
  dsimp only
  rw [persistRawWrite_page rfl hstart hfirst]
  cases first with
  | some j =>
    exact ⟨_, rfl, .write (taken_length hfirst) (Nat.le_refl k) (by omega), block_first chip rec_ j⟩
  | none =>
    simp only [Option.isNone_none, if_true]
    rw [persistRawWrite_page rfl hnext hsecond]
    refine ⟨_, rfl, ?_, block_both chip rec_ second⟩
    exact (HalfWritten.write hfirst (Nat.le_refl k) (by omega)).trans
      (.write (taken_length hsecond) (by omega) (Nat.le_refl _))

theorem pcOffset_page (slot : Fin acMaxSlots) (second : Bool) :
    (pcOffset slot second.toNat).toNat % chipSize = pageSize * halfPage slot second ∧
      (pcOffset slot second.toNat + UInt16.ofNat pageSize).toNat % chipSize =
        pageSize * (halfPage slot second + 1) := by
  revert slot second
  decide

theorem codesSave_refines (d : PersistChip) (ctx : AcCtx) (slot : Fin acMaxSlots) (answers : Bool)
    (first second : WriteEnd) :
    (chipStep d (.codesSave ctx slot answers first second)).stores =
      storesStep d.stores (.codesSave ctx slot answers first second) := by
  obtain ⟨chip, attached, cur, found⟩ := d
  simp only [chipStep, persistCodesSaveChip, storesStep, PersistChip.stores]
  by_cases htransient : ((ctx.slots slot).occupied && (ctx.slots slot).transient) = true
  · simp [htransient]
  · cases attached with
    | false => simp [htransient, persistRawRead]
    | true =>
      cases answers with
      | false => simp [htransient, persistRawRead]
      | true =>
        simp only [htransient, persistRawRead, Bool.not_true, Bool.or_self, Bool.false_eq_true,
          if_false, slotHalves_read]
        obtain ⟨hstart, hnext⟩ := pcOffset_page slot (pcSlotWriteHalf (slotsOf chip slot)).1
        obtain ⟨chip', hout, hwritten, hblock⟩ := record_written chip cur found hstart hnext
          (pcEncode (recordOf (ctx.slots slot)) (pcSlotWriteHalf (slotsOf chip slot)).2) first second
        rw [hout, hwritten.ring, hwritten.slots, hblock, ← slotsOf_half]
        rfl

theorem chipStep_refines (d : PersistChip) (op : ChipOp) :
    (chipStep d op).stores = storesStep d.stores op := by
  cases op with
  | boot attached answers => exact boot_refines d attached answers
  | save s ending => exact save_refines d s ending
  | codesSave ctx slot answers first second =>
    exact codesSave_refines d ctx slot answers first second

theorem chipRun_refines (d : PersistChip) (ops : List ChipOp) :
    (exec chipStep d ops).stores = exec storesStep d.stores ops := by
  induction ops generalizing d with
  | nil => rfl
  | cons op ops ih => rw [exec_cons, exec_cons, ih, chipStep_refines]

theorem codesLoad_refines (ctx : AcCtx) {d : PersistChip} (h : d.attached = true) :
    persistCodesLoadChip ctx d (fun _ => true) = persistCodesLoad ctx (slotsOf d.chip) := by
  unfold persistCodesLoadChip persistCodesLoad
  rw [if_neg (by simp [h])]
  refine congrArg (fun slots => { ctx with slots }) (funext fun i => ?_)
  have hraw : persistRawRead d (pcOffset i 0) (2 * pcRecSize) true =
      some (readFrom chipSize d.chip (pcOffset i 0).toNat (2 * pcRecSize)) := by
    rw [persistRawRead, if_neg (by simp [h])]
  have hslot := slotHalves_read d.chip i
  rw [hraw]
  generalize slotsOf d.chip i = s at hslot ⊢
  subst hslot
  rfl

theorem persistRawWrite_ok {d : PersistChip} {mem : UInt16} {buf : List UInt8} {ending : WriteEnd}
    (h : (persistRawWrite d mem buf ending).2 = true) : d.attached = true ∧ ending = none := by
  unfold persistRawWrite at h
  split at h
  next => simp at h
  next hattached =>
    split at h
    next => simp at h
    next => exact ⟨by simpa using hattached, by simpa using h⟩

theorem persistSaveChip_ok {d : PersistChip} {s : PrState} {ending : WriteEnd}
    (h : (persistSaveChip d s ending).2 = true) : d.attached = true ∧ ending = none := by
  unfold persistSaveChip at h
  split at h
  next => simp at h
  next =>
    dsimp only at h
    split at h
    next hwritten => exact persistRawWrite_ok hwritten
    next hfailed => exact absurd h hfailed

theorem persistCodesSaveChip_ok {d : PersistChip} {ctx : AcCtx} {slot : Fin acMaxSlots}
    {answers : Bool} {first second : WriteEnd}
    (hkept : ((ctx.slots slot).occupied && (ctx.slots slot).transient) = false)
    (h : (persistCodesSaveChip ctx d slot answers first second).2 = true) :
    d.attached = true ∧ answers = true ∧ first = none ∧ second = none := by
  unfold persistCodesSaveChip at h
  rw [if_neg (by simp [hkept])] at h
  cases hread : persistRawRead d (pcOffset slot 0) (2 * pcRecSize) answers with
  | none => simp [hread] at h
  | some img =>
    have hanswers : answers = true := by
      unfold persistRawRead at hread
      split at hread <;> simp_all
    simp only [hread] at h
    split at h
    next hwritten =>
      obtain ⟨hattached, hfirst⟩ := persistRawWrite_ok hwritten
      exact ⟨hattached, hanswers, hfirst, (persistRawWrite_ok h).2⟩
    next hfailed => exact absurd h hfailed

theorem chip_refines (d : PersistChip) (ops : List ChipOp) :
    (exec chipStep d ops).stores = exec storesStep d.stores ops ∧
      (∀ ctx, (exec chipStep d ops).attached = true →
        persistCodesLoadChip ctx (exec chipStep d ops) (fun _ => true) =
          persistCodesLoad ctx (exec storesStep d.stores ops).eeprom) ∧
      (∀ s ending, (persistSaveChip (exec chipStep d ops) s ending).2 = true →
        (persistSaveChip (exec chipStep d ops) s ending).1.stores.store =
          persistSave (exec storesStep d.stores ops).store s none) ∧
      ∀ ctx slot answers first second,
        ((ctx.slots slot).occupied && (ctx.slots slot).transient) = false →
        (persistCodesSaveChip ctx (exec chipStep d ops) slot answers first second).2 = true →
        (persistCodesSaveChip ctx (exec chipStep d ops) slot answers first second).1.stores.eeprom =
          Function.update (exec storesStep d.stores ops).eeprom slot
            (pcSlotSave ((exec storesStep d.stores ops).eeprom slot)
              ⟨recordOf (ctx.slots slot), none⟩) := by
  have hrun := chipRun_refines d ops
  refine ⟨hrun, fun ctx hattached => ?_, fun s ending hok => ?_,
    fun ctx slot answers first second hkept hok => ?_⟩
  · rw [← hrun]
    exact codesLoad_refines ctx hattached
  · obtain ⟨hattached, hending⟩ := persistSaveChip_ok hok
    have hstep := save_refines (exec chipStep d ops) s ending
    rw [storesStep, show (exec chipStep d ops).stores.attached = true from hattached, if_pos rfl,
      hending, hrun] at hstep
    rw [hending]
    exact congrArg TwoStores.store hstep
  · obtain ⟨hattached, hanswers, hfirst, hsecond⟩ := persistCodesSaveChip_ok hkept hok
    have hstep := codesSave_refines (exec chipStep d ops) ctx slot answers first second
    rw [storesStep, show (exec chipStep d ops).stores.attached = true from hattached, hanswers,
      hkept, hfirst, hsecond, hrun] at hstep
    rw [hanswers, hfirst, hsecond]
    exact congrArg TwoStores.eeprom hstep

end GateAccess

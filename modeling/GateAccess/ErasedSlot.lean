import GateAccess.SlotAtomic

namespace GateAccess

def erasedRec : Bytes pcRecSize := List.Vector.replicate _ 0xFF

/-- The EEPROM as it is erased, all ones. -/
def erasedChip : Eeprom := fun _ => ⟨erasedRec, erasedRec⟩

/-- The 128 bytes of a slot. -/
def PcSlot.bytes (slot : PcSlot) : List UInt8 := slot.a.toList ++ slot.b.toList

/-- A save of this table reaches the chip. -/
def Written (i : Fin acMaxSlots) (table : AcCtx) : Bool :=
  !((table.slots i).occupied && (table.slots i).transient)

/-- A save of this table stores a code. -/
def StoresCode (i : Fin acMaxSlots) (table : AcCtx) : Prop :=
  (table.slots i).occupied = true ∧ (table.slots i).transient = false

/-- The chip after one slot was saved from each of these tables in turn. -/
def savedChip (i : Fin acMaxSlots) (tables : List AcCtx) : Eeprom :=
  exec (fun chip table => persistCodesSave table chip i) erasedChip tables

/-- Nothing of the codes stored is left in a slot: no hash anywhere in its bytes, and no half that
reads as a code. -/
structure LeavesNothing (i : Fin acMaxSlots) (tables : List AcCtx) (slot : PcSlot) : Prop where
  noHash : ∀ table ∈ tables, StoresCode i table → ¬(table.slots i).hash.toList <:+: slot.bytes
  noFallback : ∀ second c g, pcDecode (slot.half second) = some (c, g) → c.occupied = false

theorem savedChip_slot (i : Fin acMaxSlots) (tables : List AcCtx) :
    savedChip i tables i = exec pcSlotWrite ⟨erasedRec, erasedRec⟩
      ((tables.filter (Written i)).map fun table => recordOf (table.slots i)) := by
  induction tables using List.reverseRecOn with
  | nil => rfl
  | append_singleton tables table ih =>
    rw [savedChip, exec_concat, ← savedChip, List.filter_append, List.map_append, exec_append, ← ih]
    unfold persistCodesSave
    cases hw : (table.slots i).occupied && (table.slots i).transient with
    | true => simp [Written, hw]
    | false => simp [Written, hw]

theorem pcSlotWrite_put (slot : PcSlot) (c : PcCode) : pcSlotWrite slot c =
    slot.put (pcSlotWriteHalf slot).1 (pcEncode c (pcSlotWriteHalf slot).2) := rfl

/-- A completed save is read back from the half it went to. -/
theorem pcReadHalf_write (slot : PcSlot) (c : PcCode) :
    pcReadHalf (pcSlotWrite slot c) = (pcSlotWriteHalf slot).1 := by
  unfold pcReadHalf
  rcases pcSlotWrite_newer slot c with ⟨hhalf, ha, hb⟩ | ⟨hhalf, hb, ha⟩
  · rw [hhalf, ha]
    cases hother : pcDecode (pcSlotWrite slot c).b with
    | none => rfl
    | some b => exact if_pos (hb b hother)
  · rw [hhalf, hb]
    cases hother : pcDecode (pcSlotWrite slot c).a with
    | none => rfl
    | some a => exact if_neg (ha a hother)

/-- Two saves in a row fill both halves. -/
theorem pcSlotWrite_twice (slot : PcSlot) (c d : PcCode) : ∃ second g g',
    (pcSlotWrite (pcSlotWrite slot c) d).half second = pcEncode c g ∧
      (pcSlotWrite (pcSlotWrite slot c) d).half (!second) = pcEncode d g' := by
  have hnext : (pcSlotWriteHalf (pcSlotWrite slot c)).1 = !(pcSlotWriteHalf slot).1 := by
    rw [pcSlotWriteHalf_other (pcSlotRead_pcSlotWrite slot c), pcReadHalf_write]
  refine ⟨(pcSlotWriteHalf slot).1, (pcSlotWriteHalf slot).2,
    (pcSlotWriteHalf (pcSlotWrite slot c)).2, ?_⟩
  rw [pcSlotWrite_put (pcSlotWrite slot c), hnext, pcSlotWrite_put slot]
  cases (pcSlotWriteHalf slot).1 <;> exact ⟨rfl, rfl⟩

/-- A record with no code has a byte no hash has at these places. -/
structure Bare (rec : Bytes pcRecSize) : Prop where
  flags : rec.toList.getD 9 1 = 0 ∨ rec.toList.getD 9 1 = 0xFF
  hash : rec.toList.getD 40 1 = 0 ∨ rec.toList.getD 40 1 = 0xFF
  filler : rec.toList.getD 62 1 = 0xFF
  unread : ∀ c g, pcDecode rec = some (c, g) → c.occupied = false

theorem bare_erased : Bare erasedRec where
  flags := .inr (by decide)
  hash := .inr (by decide)
  filler := by decide
  unread := by
    have hblank : pcDecode erasedRec = none := by decide
    simp [hblank]

theorem bare_empty {c : PcCode} (h : c.occupied = false) (g : UInt32) : Bare (pcEncode c g) := by
  cases c
  obtain rfl := h
  refine ⟨.inl rfl, .inl rfl, rfl, fun c g' hread => ?_⟩
  rw [pcDecode_pcEncode] at hread
  rw [← (Prod.mk.inj (Option.some.inj hread)).1]
  rfl

/-- A byte of a slot without codes that no window of 32 can avoid. -/
theorem bare_window {a b : Bytes pcRecSize} (ha : Bare a) (hb : Bare b) {k : Nat} (hk : k ≤ 96) :
    ∃ j < 32, (a.toList ++ b.toList).getD (k + j) 1 = 0 ∨ (a.toList ++ b.toList).getD (k + j) 1 = 0xFF := by
  have hlen : a.toList.length = 64 := by simp
  have hfirst : ∀ n < 64, (a.toList ++ b.toList).getD n 1 = a.toList.getD n 1 := fun n hn =>
    List.getD_append _ _ _ _ (by omega)
  have hsecond : ∀ n, (a.toList ++ b.toList).getD (64 + n) 1 = b.toList.getD n 1 := fun n => by
    rw [List.getD_append_right _ _ _ _ (by omega), hlen, Nat.add_sub_cancel_left]
  by_cases h9 : k ≤ 9
  · refine ⟨9 - k, by omega, ?_⟩
    rw [Nat.add_sub_of_le h9, hfirst 9 (by omega)]
    exact ha.flags
  by_cases h40 : k ≤ 40
  · refine ⟨40 - k, by omega, ?_⟩
    rw [Nat.add_sub_of_le h40, hfirst 40 (by omega)]
    exact ha.hash
  by_cases h62 : k ≤ 62
  · refine ⟨62 - k, by omega, .inr ?_⟩
    rw [Nat.add_sub_of_le h62, hfirst 62 (by omega)]
    exact ha.filler
  by_cases h73 : k ≤ 73
  · refine ⟨73 - k, by omega, ?_⟩
    rw [Nat.add_sub_of_le h73, hsecond 9]
    exact hb.flags
  · refine ⟨104 - k, by omega, ?_⟩
    rw [Nat.add_sub_of_le (by omega), hsecond 40]
    exact hb.hash

theorem bare_not_infix {a b : Bytes pcRecSize} (ha : Bare a) (hb : Bare b) {hash : Bytes acHashLen}
    (hplain : ∀ c ∈ hash.toList, c ≠ 0 ∧ c ≠ 0xFF) : ¬hash.toList <:+: a.toList ++ b.toList := by
  rintro ⟨pre, post, heq⟩
  have h32 : hash.toList.length = 32 := by simp
  have hwidth : pre.length + hash.toList.length + post.length = 64 + 64 := by
    have hcount := congrArg List.length heq
    rwa [List.length_append, List.length_append, List.length_append, List.Vector.toList_length a,
      List.Vector.toList_length b] at hcount
  obtain ⟨j, hj, hbad⟩ := bare_window ha hb (k := pre.length) (by omega)
  have hbyte : (a.toList ++ b.toList).getD (pre.length + j) 1 = hash.toList[j] := by
    rw [← heq, List.append_assoc, List.getD_append_right _ _ _ _ (by omega), Nat.add_sub_cancel_left,
      List.getD_append _ _ _ _ (by omega), List.getD_eq_getElem _ _ (by omega)]
  rw [hbyte] at hbad
  have hgood := hplain _ (List.getElem_mem (by omega : j < hash.toList.length))
  tauto

theorem LeavesNothing.of_bare {i : Fin acMaxSlots} {tables : List AcCtx} {slot : PcSlot}
    (ha : Bare slot.a) (hb : Bare slot.b)
    (hplain : ∀ table ∈ tables, StoresCode i table →
      ∀ c ∈ (table.slots i).hash.toList, c ≠ 0 ∧ c ≠ 0xFF) : LeavesNothing i tables slot where
  noHash table hmem hstored := bare_not_infix ha hb (hplain table hmem hstored)
  noFallback second c g hread := by
    cases second with
    | false => exact ha.unread c g hread
    | true => exact hb.unread c g hread

theorem half_window (slot : PcSlot) (second : Bool) : (slot.half second).toList <:+: slot.bytes := by
  cases second with
  | false => exact (List.prefix_append _ _).isInfix
  | true => exact (List.suffix_append _ _).isInfix

theorem hash_infix {c : PcCode} (h : c.occupied = true) (g : UInt32) :
    c.hash.toList <:+: (pcEncode c g).toList := by
  set rec := (pcEncode c g).toList with hrec
  have hlen : rec.length = 64 := by simp [hrec]
  have hfield : fill acHashLen (rec.drop 20) = c.hash := by
    have hfields := pcData_fields c g (put16 (crc16 (pcData c g)) ++ [0xFF, 0xFF])
    rw [h] at hfields
    exact hfields.2.2.2.2.2.1
  have hhash : (rec.drop 20).take acHashLen = c.hash.toList := by
    have h32 : acHashLen = 32 := rfl
    rw [← hfield, fill, List.Vector.toList_mk, List.take_append_of_le_length (by simp [hlen, h32])]
  rw [← hhash]
  exact (List.take_prefix _ _).isInfix.trans (List.drop_suffix _ _).isInfix

variable {i : Fin acMaxSlots} {tables : List AcCtx} {last table : AcCtx}

theorem savedChip_erase (hlast : (last.slots i).occupied = false) :
    savedChip i (tables ++ [last]) i = pcSlotWrite (savedChip i tables i) .zero := by
  have hwritten : Written i last = true := by simp [Written, hlast]
  have hempty : recordOf (last.slots i) = .zero := by simp [recordOf, hlast]
  rw [savedChip_slot, savedChip_slot, List.filter_append, List.map_append, exec_append]
  simp [hwritten, hempty]

/-- Beside the empty record stands the one written before it. -/
theorem savedChip_halves (hlast : (last.slots i).occupied = false)
    (hbefore : (tables.filter (Written i)).getLast? = some table) : ∃ second g g',
      (savedChip i (tables ++ [last]) i).half second = pcEncode (recordOf (table.slots i)) g ∧
        (savedChip i (tables ++ [last]) i).half (!second) = pcEncode .zero g' := by
  obtain ⟨earlier, hlater⟩ := List.getLast?_eq_some_iff.mp hbefore
  rw [savedChip_erase hlast, savedChip_slot, hlater, List.map_append, exec_append, List.map_singleton,
    exec_cons, exec_nil]
  exact pcSlotWrite_twice _ _ _

theorem hash_kept (hlast : (last.slots i).occupied = false)
    (hbefore : (tables.filter (Written i)).getLast? = some table)
    (hoccupied : (table.slots i).occupied = true) :
    (table.slots i).hash.toList <:+: (savedChip i (tables ++ [last]) i).bytes := by
  obtain ⟨second, g, -, hold, -⟩ := savedChip_halves hlast hbefore
  have hcode : (recordOf (table.slots i)).occupied = true := by simp [recordOf, hoccupied]
  have hsame : (recordOf (table.slots i)).hash = (table.slots i).hash := by simp [recordOf, hoccupied]
  have hrec := hash_infix hcode g
  rw [hsame, ← hold] at hrec
  exact hrec.trans (half_window _ second)

/-- Saving a slot empty wipes it clean exactly when the record before was empty already: the older
half keeps the code that was revoked. -/
theorem erased_leaves_nothing_iff (i : Fin acMaxSlots) (tables : List AcCtx) (last : AcCtx)
    (hlast : (last.slots i).occupied = false)
    (hplain : ∀ table ∈ tables, StoresCode i table →
      ∀ c ∈ (table.slots i).hash.toList, c ≠ 0 ∧ c ≠ 0xFF) :
    LeavesNothing i tables (savedChip i (tables ++ [last]) i) ↔
      ∀ table, (tables.filter (Written i)).getLast? = some table → (table.slots i).occupied = false := by
  constructor
  · intro h table hbefore
    by_contra hoccupied
    rw [Bool.not_eq_false] at hoccupied
    obtain ⟨hmem, hwritten⟩ := List.mem_filter.mp (List.mem_of_getLast? hbefore)
    have htransient : (table.slots i).transient = false := by simpa [Written, hoccupied] using hwritten
    exact h.noHash table hmem ⟨hoccupied, htransient⟩ (hash_kept hlast hbefore hoccupied)
  · intro hfree
    cases hbefore : (tables.filter (Written i)).getLast? with
    | none =>
      have hnone := List.getLast?_eq_none_iff.mp hbefore
      have hblank : pcDecode erasedRec = none := by decide
      have hfirst : pcSlotWrite ⟨erasedRec, erasedRec⟩ .zero = ⟨pcEncode .zero 1, erasedRec⟩ := by
        simp [pcSlotWrite, pcSlotWriteHalf, hblank]
      rw [savedChip_erase hlast, savedChip_slot, hnone, List.map_nil, exec_nil, hfirst]
      exact .of_bare (bare_empty rfl 1) bare_erased hplain
    | some table =>
      obtain ⟨second, g, g', hold, hnew⟩ := savedChip_halves hlast hbefore
      have hempty := hfree table hbefore
      have hcode : (recordOf (table.slots i)).occupied = false := by
        simp [recordOf, hempty, PcCode.zero]
      have hbare := bare_empty hcode g
      have hbare' := bare_empty (c := .zero) rfl g'
      rw [← hold] at hbare
      rw [← hnew] at hbare'
      cases second with
      | false => exact .of_bare hbare hbare' hplain
      | true => exact .of_bare hbare' hbare hplain

def guestTable (i : Fin acMaxSlots) : AcCtx :=
  (acInit 5 300).setSlot i ⟨true, false, fill _ (ascii "00000001"), List.Vector.replicate _ 7, 0, 60⟩

def emptyTable : AcCtx := acInit 5 300

theorem erased_twice_leaves_nothing :
    LeavesNothing 0 [guestTable 0, emptyTable]
      (savedChip 0 ([guestTable 0, emptyTable] ++ [emptyTable]) 0) :=
  (erased_leaves_nothing_iff 0 [guestTable 0, emptyTable] emptyTable rfl (by
    intro table hmem hstored
    have hguest : table = guestTable 0 ∨ table = emptyTable := by simpa using hmem
    rcases hguest with rfl | rfl
    · decide +kernel
    · cases hstored.1)).mpr (by
    have hlast : ([guestTable 0, emptyTable].filter (Written 0)).getLast? = some emptyTable := rfl
    rw [hlast]
    rintro table ⟨⟩
    rfl)

/-- One save after the code was stored, as `code del` makes it, and the hash is still on the chip. -/
theorem erased_once_keeps_hash :
    ¬LeavesNothing 0 [guestTable 0] (savedChip 0 ([guestTable 0] ++ [emptyTable]) 0) := fun h => by
  have hlast : (emptyTable.slots 0).occupied = false := rfl
  have hbefore : ([guestTable 0].filter (Written 0)).getLast? = some (guestTable 0) := rfl
  have hkept := hash_kept hlast hbefore rfl
  exact h.noHash (guestTable 0) (List.mem_singleton_self _) ⟨rfl, rfl⟩ hkept

end GateAccess

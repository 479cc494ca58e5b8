import GateAccess.TgProto
import GateAccess.Decimals

namespace GateAccess

/-- What the signing tool is asked for, the code already hashed. -/
inductive TgOrder
  | add (id : List UInt8) (digest : Bytes acHashLen) (start finish : Int)
  | revoke (id : List UInt8)

def TgOrder.id : TgOrder → List UInt8
  | .add id _ _ _ | .revoke id => id

def unused : List UInt8 := ascii "-"

def TgOrder.fields (counter : Int) : TgOrder → List (List UInt8)
  | .add id digest start finish =>
    [ascii "v1", decimalInt counter, ascii "add", id, hexText digest.toList, decimalInt start,
      decimalInt finish]
  | .revoke id => [ascii "v1", decimalInt counter, ascii "rev", id, unused, unused, unused]

def TgOrder.inverted : TgOrder → Bool
  | .add _ _ start finish => finish < start
  | .revoke _ => false

/-- `make_tg_line.py` with its key behind `sign`; none where it exits with an error. -/
def makeTgLine (sign : List UInt8 → Bytes 64) (counter : Int) (order : TgOrder) :
    Option (List UInt8) :=
  if counter < 0 then none
  else if !checkId order.id then none
  else if order.inverted then none
  else
    let signed := [bar].intercalate (order.fields counter)
    let line := signed ++ [bar] ++ (sign signed).toList
    if line.length > tgLineMax then none else some line

/-- The message the tool's inputs stand for. -/
def TgOrder.msg (counter : Int) : TgOrder → TgMsg
  | .add id digest start finish => ⟨counter.toNat, .add, fill _ id, digest, start, finish⟩
  | .revoke id => ⟨counter.toNat, .revoke, fill _ id, zeros _, 0, 0⟩

/-- The numerals of an order lie below `2^63`. -/
def TgOrder.Fits : TgOrder → Prop
  | .add _ _ start finish => start.natAbs < 2 ^ 63 ∧ finish.natAbs < 2 ^ 63
  | .revoke _ => True

theorem u64Loop_digits {v : Nat} {s : List UInt8} (hs : s.all isDigit = true)
    (hmax : decFrom v s < 2 ^ 64) : u64Loop v s = some (decFrom v s) := by
  induction s generalizing v with
  | nil => rfl
  | cons c s ih =>
    obtain ⟨hc, hs⟩ : isDigit c = true ∧ s.all isDigit = true := by simpa using hs
    rw [decFrom_cons] at hmax ⊢
    have hle := le_decFrom (v * 10 + (c.toNat - 48)) s
    have hmod : (v * 10 + (c.toNat - 48)) % 2 ^ 64 = v * 10 + (c.toNat - 48) :=
      Nat.mod_eq_of_lt (by omega)
    rw [u64Loop]
    simp only [hc, Bool.not_true, Bool.false_eq_true, if_false, hmod]
    rw [if_neg (by omega), ih hs hmax]

theorem tgParseU64_decimal {n : Nat} (h : n < 2 ^ 64) : tgParseU64 (decimal n) = some n := by
  have hlen : (decimal n).length ≤ 20 := (decimal_length_le (by decide)).mpr (by omega)
  have hpos : (decimal n).length ≠ 0 := fun h0 => decimal_ne_nil n (List.length_eq_zero_iff.mp h0)
  rw [tgParseU64, if_neg (by omega), u64Loop_digits (decimal_digits n) (by simpa using h),
    decFrom_decimal]

theorem decimal_head (n : Nat) : (decimal n).headD 0 ≠ 45 := by
  have h45 : (45 : UInt8) ∉ decimal n := not_mem_decimal (by decide) n
  cases hd : decimal n with
  | nil => exact absurd hd (decimal_ne_nil n)
  | cons c s =>
    rintro rfl
    exact h45 (by rw [hd]; exact List.mem_cons_self)

theorem tgParseI64_decimalInt {n : Int} (h : n.natAbs < 2 ^ 63) :
    tgParseI64 (decimalInt n) = some n := by
  have hmax : int64Max = 2 ^ 63 - 1 := rfl
  have hread := tgParseU64_decimal (n := n.natAbs) (by omega)
  unfold tgParseI64 decimalInt
  by_cases hn : n < 0
  · simp only [hn, if_true, List.headD_cons, List.tail_cons, hread]
    rw [if_neg (by omega)]
    congr 1
    omega
  · simp only [hn, if_false, decimal_head, hread]
    rw [if_neg (by omega)]
    congr 1
    omega

theorem TgOrder.fields_plain {order : TgOrder} (hid : checkId order.id = true) (counter : Int)
    {c : UInt8} (hc : c = 0 ∨ c = bar) : ∀ f ∈ order.fields counter, c ∉ f := by
  have hhex : isHex c = false := by rcases hc with rfl | rfl <;> decide
  have hdig : isDigit c = false := by rcases hc with rfl | rfl <;> decide
  have h45 : c ≠ 45 := by rcases hc with rfl | rfl <;> decide
  have hword : ∀ w ∈ [ascii "v1", ascii "add", ascii "rev", unused], c ∉ w := by
    rcases hc with rfl | rfl <;> decide
  have hids : c ∉ order.id := by
    simp only [checkId, Bool.and_eq_true] at hid
    exact not_mem_hex hhex hid.2
  intro f hf
  cases order with
  | add id digest start finish =>
    simp only [TgOrder.fields, List.mem_cons, List.not_mem_nil, or_false] at hf
    rcases hf with rfl | rfl | rfl | rfl | rfl | rfl | rfl
    · exact hword _ (by simp)
    · exact (decimalInt_numeral _).not_mem hdig h45
    · exact hword _ (by simp)
    · exact hids
    · exact not_mem_hex hhex (hexText_isHex _)
    · exact (decimalInt_numeral _).not_mem hdig h45
    · exact (decimalInt_numeral _).not_mem hdig h45
  | revoke id =>
    simp only [TgOrder.fields, List.mem_cons, List.not_mem_nil, or_false] at hf
    rcases hf with rfl | rfl | rfl | rfl | rfl | rfl | rfl
    · exact hword _ (by simp)
    · exact (decimalInt_numeral _).not_mem hdig h45
    · exact hword _ (by simp)
    · exact hids
    · exact hword _ (by simp)
    · exact hword _ (by simp)
    · exact hword _ (by simp)

theorem TgOrder.fields_read {order : TgOrder} {counter : Int} (hc : 0 ≤ counter)
    (hmax : counter < 2 ^ 63) (hid : checkId order.id = true) (hw : order.inverted = false)
    (hfits : order.Fits) :
    ∃ op hash validFrom validUntil,
      order.fields counter =
        [ascii "v1", decimalInt counter, op, order.id, hash, validFrom, validUntil] ∧
      FieldsRead (decimalInt counter) op order.id hash validFrom validUntil (order.msg counter) := by
  have hread : tgParseU64 (decimalInt counter) = some counter.toNat := by
    rw [decimalInt, if_neg (by omega), show counter.natAbs = counter.toNat by omega]
    exact tgParseU64_decimal (by omega)
  cases order with
  | add id digest start finish =>
    have hle : start ≤ finish := by simpa [TgOrder.inverted] using hw
    exact ⟨_, _, _, _, rfl, hread, hexId_checkId hid, Or.inl ⟨rfl, rfl, rfl,
      tgParseI64_decimalInt hfits.1, tgParseI64_decimalInt hfits.2, hle⟩⟩
  | revoke id => exact ⟨_, _, _, _, rfl, hread, hexId_checkId hid, Or.inr ⟨rfl, rfl⟩⟩

theorem makeTgLine_some {sign : List UInt8 → Bytes 64} {counter : Int} {order : TgOrder}
    {line : List UInt8} (h : makeTgLine sign counter order = some line) :
    0 ≤ counter ∧ checkId order.id = true ∧ order.inverted = false ∧
      line = [bar].intercalate (order.fields counter) ++
        bar :: (sign ([bar].intercalate (order.fields counter))).toList ∧
      line.length ≤ tgLineMax := by
  unfold makeTgLine at h
  dsimp only at h
  split_ifs at h with hc hid hw hlen
  obtain rfl := Option.some.inj h
  refine ⟨by omega, by simpa using hid, by simpa using hw, ?_, by omega⟩
  rw [List.append_assoc]
  rfl

/-- What the signing tool prints, the device reads back. -/
theorem tgParse_makeTgLine {sign : List UInt8 → Bytes 64}
    (hsign : ∀ region, (sign region).toList.all isHex = true) {counter : Int} {order : TgOrder}
    {line : List UInt8} (hline : makeTgLine sign counter order = some line)
    (hmax : counter < 2 ^ 63) (hfits : order.Fits) {last : Nat} (hlast : (last : Int) < counter) :
    tgParse line last (fun region => some (sign region)) = (.ok, order.msg counter) := by
  obtain ⟨hc, hid, hw, hline, hlen⟩ := makeTgLine_some hline
  obtain ⟨op, hash, validFrom, validUntil, hfields, hread⟩ :=
    order.fields_read hc hmax hid hw hfits
  have hplain := fun c hc => order.fields_plain hid counter (c := c) hc
  rw [hfields] at hline hplain
  set region := [bar].intercalate
    [ascii "v1", decimalInt counter, op, order.id, hash, validFrom, validUntil] with hregion
  have hzero : 0 ∉ line := by
    rw [hline]
    simp only [List.mem_append, List.mem_cons, not_or]
    exact ⟨not_mem_intercalate (by decide) (hplain 0 (Or.inl rfl)), by decide,
      not_mem_hex (by decide) (hsign region)⟩
  have hsplit : line.splitOn bar =
      [ascii "v1", decimalInt counter, op, order.id, hash, validFrom, validUntil,
        (sign region).toList] := by
    rw [hline, List.append_cons, hregion, ← intercalate_concat (by simp)]
    refine List.splitOn_intercalate bar ?_ (by simp)
    intro f hf
    rcases List.mem_append.mp hf with hf | hf
    · exact hplain bar (Or.inr rfl) f hf
    · rw [List.mem_singleton.mp hf]
      exact not_mem_hex (by decide) (hsign _)
  have hcounter : (order.msg counter).counter = counter.toNat := by cases order <;> rfl
  refine tgParse_iff.mpr ⟨?_, by omega⟩
  rw [cstr_eq_self hzero]
  refine ⟨?_, hlen, _, _, _, _, _, _, region, sign region, hsplit, hline, rfl, hread⟩
  rw [hline]
  simp

/-- The courier's format is what `tg_parse` accepts, no less and no more, and what the tool writes. -/
theorem tgParse_exact :
    (∀ (mac : HexMac) (line : List UInt8) (last : Nat) (m : TgMsg),
      tgParse line last mac = (.ok, m) ↔ TgFormat mac (cstr line) m ∧ last < m.counter) ∧
    ∀ sign : List UInt8 → Bytes 64, (∀ region, (sign region).toList.all isHex = true) →
      ∀ counter order line, makeTgLine sign counter order = some line → counter < 2 ^ 63 →
        order.Fits → ∀ last : Nat, (last : Int) < counter →
          tgParse line last (fun region => some (sign region)) = (.ok, order.msg counter) :=
  ⟨fun _ _ _ _ => tgParse_iff, fun _ hsign _ _ _ hline hmax hfits _ hlast =>
    tgParse_makeTgLine hsign hline hmax hfits hlast⟩

theorem tgParse_exact_revoke :
    tgParse (ascii "v1|2|rev|a1b2c3d4|-|-|-|" ++ List.replicate 64 48) 1
      (fun _ => some (List.Vector.replicate _ 48)) =
      (.ok, ⟨2, .revoke, fill _ (ascii "a1b2c3d4"), zeros _, 0, 0⟩) :=
  tgParse_exact.2 (fun _ => List.Vector.replicate _ 48) (fun _ => by decide) 2
    (.revoke (ascii "a1b2c3d4")) _ (by decide +kernel) (by decide) trivial 1 (by decide)

end GateAccess

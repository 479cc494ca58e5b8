import GateAccess.WireFields

namespace GateAccess

def tgLineMax : Nat := 256
def tgMacHexLen : Nat := 64

def bar : UInt8 := 124

inductive TgResult
  | ok
  | errFormat
  | errVersion
  | errMac
  | errReplay
  | errId
  | errHash
  | errWindow
  | errOp
  deriving DecidableEq

inductive TgOp
  | add
  | revoke
  deriving DecidableEq

structure TgMsg where
  counter : Nat
  op : TgOp
  id : Bytes acIdLen
  hash : Bytes acHashLen
  validFrom : Int
  validUntil : Int
  deriving DecidableEq

def TgMsg.zero : TgMsg := ⟨0, .add, zeros _, zeros _, 0, 0⟩

/-- The digit loop of `parse_u64`, in 64-bit arithmetic. -/
def u64Loop : Nat → List UInt8 → Option Nat
  | v, [] => some v
  | v, c :: cs =>
    if !isDigit c then none
    else
      let next := (v * 10 + (c.toNat - 48)) % 2 ^ 64
      if next < v then none else u64Loop next cs

def tgParseU64 (s : List UInt8) : Option Nat :=
  if s.length = 0 ∨ s.length > 20 then none else u64Loop 0 s

def tgParseI64 (s : List UInt8) : Option Int :=
  let negative := s.headD 0 = 45
  match tgParseU64 (if negative then s.tail else s) with
  | none => none
  | some magnitude =>
    if magnitude > int64Max then none
    else some (if negative then -(magnitude : Int) else magnitude)

def readOp (field : List UInt8) : Option TgOp :=
  if field = ascii "add" then some .add
  else if field = ascii "rev" then some .revoke
  else none

/-- The fields only an add carries, with what they leave in `out` when one of them is refused. -/
def parseAdd (out : TgMsg) (hash validFrom validUntil : List UInt8) : TgResult × TgMsg :=
  let out := { out with hash := (hexToBytes acHashLen hash).2 }
  if !(hexToBytes acHashLen hash).1 then (.errHash, out)
  else
    match tgParseI64 validFrom with
    | none => (.errFormat, out)
    | some f =>
      let out := { out with validFrom := f }
      match tgParseI64 validUntil with
      | none => (.errFormat, out)
      | some u =>
        let out := { out with validUntil := u }
        if u < f then (.errWindow, out) else (.ok, out)

/-- What `tg_parse` does with the fields of a line that verified. -/
def parseFields (lastCounter : Nat) (counter op id hash validFrom validUntil : List UInt8) :
    TgResult × TgMsg :=
  match tgParseU64 counter with
  | none => (.errFormat, .zero)
  | some c =>
    if c ≤ lastCounter then (.errReplay, .zero)
    else
      match readOp op with
      | none => (.errOp, .zero)
      | some op =>
        if id.length ≠ acIdLen - 1 then (.errId, .zero)
        else if !id.all fun c => (hexNibble c).isSome then (.errId, .zero)
        else
          let out := { TgMsg.zero with id := fill _ id }
          match op with
          | .revoke => (.ok, { out with counter := c, op := .revoke })
          | .add =>
            let added := parseAdd out hash validFrom validUntil
            if added.1 = .ok then (.ok, { added.2 with counter := c, op := .add }) else added

/-- The result of `tg_parse` and what it leaves in `out`. -/
def tgParse (line : List UInt8) (lastCounter : Nat) (mac : HexMac) : TgResult × TgMsg :=
  let text := cstr line
  if text.length = 0 ∨ text.length > tgLineMax then (.errFormat, .zero)
  else
    match text.splitOn bar with
    | [version, counter, op, id, hash, validFrom, validUntil, got] =>
      if version ≠ ascii "v1" then (.errVersion, .zero)
      else
        match mac (text.take (text.length - got.length - 1)) with
        | none => (.errMac, .zero)
        | some expected =>
          if got.length ≠ tgMacHexLen ∨ !ctEqual got expected.toList then (.errMac, .zero)
          else parseFields lastCounter counter op id hash validFrom validUntil
    | _ => (.errFormat, .zero)

structure FieldsSay (counter op id hash validFrom validUntil : List UInt8) (m : TgMsg) : Prop where
  counter : tgParseU64 counter = some m.counter
  op : readOp op = some m.op
  id : HexId id m.id
  code : m.op = .add → hexToBytes acHashLen hash = (true, m.hash) ∧
    tgParseI64 validFrom = some m.validFrom ∧ tgParseI64 validUntil = some m.validUntil ∧
    m.validFrom ≤ m.validUntil

def TgLine (mac : HexMac) (text : List UInt8) (m : TgMsg) : Prop :=
  ∃ counter op id hash validFrom validUntil expected,
    mac ([bar].intercalate [ascii "v1", counter, op, id, hash, validFrom, validUntil]) =
      some expected ∧
    text = [bar].intercalate [ascii "v1", counter, op, id, hash, validFrom, validUntil] ++
      [bar] ++ expected.toList ∧
    FieldsSay counter op id hash validFrom validUntil m

/-- What the last three fields of an add say. -/
structure AddSays (hash validFrom validUntil : List UInt8) (m : TgMsg) : Prop where
  hash : hash = hexText m.hash.toList
  validFrom : tgParseI64 validFrom = some m.validFrom
  validUntil : tgParseI64 validUntil = some m.validUntil
  window : m.validFrom ≤ m.validUntil

theorem parseAdd_iff {out m : TgMsg} {hash validFrom validUntil : List UInt8} :
    parseAdd out hash validFrom validUntil = (.ok, m) ↔ AddSays hash validFrom validUntil m ∧
      m = ⟨out.counter, out.op, out.id, m.hash, m.validFrom, m.validUntil⟩ := by
  constructor
  · intro h
    unfold parseAdd at h
    dsimp only at h
    split_ifs at h with hhash
    · simp at h
    split at h
    next => simp at h
    next f hf =>
      split at h
      next => simp at h
      next u hu =>
        split_ifs at h with hw
        · simp at h
        · obtain ⟨_, rfl⟩ := Prod.mk.inj h
          refine ⟨⟨?_, hf, hu, by simpa using hw⟩, rfl⟩
          refine hexToBytes_iff.mp (Prod.ext ?_ rfl)
          simpa using hhash
  · rintro ⟨⟨hhash, hf, hu, hw⟩, hm⟩
    unfold parseAdd
    simp only [hexToBytes_iff.mpr hhash, hf, hu, Bool.not_true, Bool.false_eq_true, if_false,
      if_neg (not_lt.mpr hw)]
    rw [← hm]

theorem readOp_iff {field : List UInt8} {op : TgOp} :
    readOp field = some op ↔
      (field = ascii "add" ∧ op = .add) ∨ (field = ascii "rev" ∧ op = .revoke) := by
  have hne : ascii "add" ≠ ascii "rev" := by decide
  unfold readOp
  by_cases ha : field = ascii "add"
  · rw [if_pos ha, Option.some_inj]
    refine ⟨fun h => Or.inl ⟨ha, h.symm⟩, ?_⟩
    rintro (⟨_, rfl⟩ | ⟨hr, _⟩)
    · rfl
    · exact absurd (ha.symm.trans hr) hne
  · rw [if_neg ha]
    by_cases hr : field = ascii "rev"
    · rw [if_pos hr, Option.some_inj]
      refine ⟨fun h => Or.inr ⟨hr, h.symm⟩, ?_⟩
      rintro (⟨hf, _⟩ | ⟨_, rfl⟩)
      · exact absurd hf ha
      · rfl
    · simp [ha, hr]

/-- What the fields of a message say; a revoke says nothing beyond its id. -/
def FieldsRead (counter op id hash validFrom validUntil : List UInt8) (m : TgMsg) : Prop :=
  tgParseU64 counter = some m.counter ∧ HexId id m.id ∧
    ((op = ascii "add" ∧ m.op = .add ∧ AddSays hash validFrom validUntil m) ∨
      (op = ascii "rev" ∧ m = ⟨m.counter, .revoke, m.id, zeros _, 0, 0⟩))

theorem parseFields_iff {last : Nat} {counter op id hash validFrom validUntil : List UInt8}
    {m : TgMsg} : parseFields last counter op id hash validFrom validUntil = (.ok, m) ↔
      FieldsRead counter op id hash validFrom validUntil m ∧ last < m.counter := by
  constructor
  · intro h
    unfold parseFields at h
    split at h
    next => simp at h
    next c hc =>
      split at h
      next => simp at h
      next hlast =>
        split at h
        next => simp at h
        next o ho =>
          split_ifs at h with hlen hhex
          · simp at h
          · simp at h
          have hid : HexId id (fill acIdLen id) :=
            hexId_fill (by simpa using hlen)
              (by simpa only [Bool.not_eq_true, Bool.not_eq_false'] using hhex)
          split at h
          next =>
            obtain ⟨_, rfl⟩ := Prod.mk.inj h
            have hop : op = ascii "rev" := by simpa using readOp_iff.mp ho
            exact ⟨⟨hc, hid, Or.inr ⟨hop, rfl⟩⟩, by simpa using hlast⟩
          next =>
            have hop : op = ascii "add" := by simpa using readOp_iff.mp ho
            dsimp only at h
            split_ifs at h with hok
            · obtain ⟨_, rfl⟩ := Prod.mk.inj h
              obtain ⟨hsaid, hm⟩ := parseAdd_iff.mp (Prod.ext hok rfl)
              refine ⟨⟨hc, ?_, Or.inl ⟨hop, rfl, ?_⟩⟩, by simpa using hlast⟩
              · exact congrArg TgMsg.id hm ▸ hid
              · exact ⟨hsaid.hash, hsaid.validFrom, hsaid.validUntil, hsaid.window⟩
            · exact absurd (Prod.mk.inj h).1 hok
  · rintro ⟨⟨hc, hid, hop⟩, hlast⟩
    have hlen : id.length = acIdLen - 1 := hid.1
    have hhex : (id.all fun c => (hexNibble c).isSome) = true := by simpa only [isHex_nibble] using hid.2.1
    unfold parseFields
    rw [hc]
    dsimp only
    rw [if_neg (not_le.mpr hlast)]
    rcases hop with ⟨rfl, hadd, hsaid⟩ | ⟨rfl, hm⟩
    · have hpart : parseAdd ⟨TgMsg.zero.counter, TgMsg.zero.op, m.id, TgMsg.zero.hash,
          TgMsg.zero.validFrom, TgMsg.zero.validUntil⟩ hash validFrom validUntil =
          (.ok, ⟨0, .add, m.id, m.hash, m.validFrom, m.validUntil⟩) :=
        parseAdd_iff.mpr ⟨⟨hsaid.hash, hsaid.validFrom, hsaid.validUntil, hsaid.window⟩, rfl⟩
      rw [readOp_iff.mpr (Or.inl ⟨rfl, rfl⟩)]
      simp only [hlen, hhex, ne_eq, not_true_eq_false, if_false, Bool.not_true, Bool.false_eq_true,
        ← hid.eq_fill]
      rw [hpart, if_pos rfl, ← hadd]
    · rw [readOp_iff.mpr (Or.inr ⟨rfl, rfl⟩)]
      simp only [hlen, hhex, ne_eq, not_true_eq_false, if_false, Bool.not_true, Bool.false_eq_true,
        ← hid.eq_fill]
      rw [hm]
      rfl

theorem FieldsRead.say {counter op id hash validFrom validUntil : List UInt8} {m : TgMsg}
    (h : FieldsRead counter op id hash validFrom validUntil m) :
    FieldsSay counter op id hash validFrom validUntil m := by
  obtain ⟨hc, hid, hop⟩ := h
  rcases hop with ⟨rfl, hadd, hsaid⟩ | ⟨rfl, hm⟩
  · exact ⟨hc, readOp_iff.mpr (Or.inl ⟨rfl, hadd⟩), hid,
      fun _ => ⟨hexToBytes_iff.mpr hsaid.hash, hsaid.validFrom, hsaid.validUntil, hsaid.window⟩⟩
  · have hrev : m.op = .revoke := by rw [hm]
    exact ⟨hc, readOp_iff.mpr (Or.inr ⟨rfl, hrev⟩), hid, fun ha => by simp [hrev] at ha⟩

theorem intercalate_concat {a : UInt8} {xs : List (List UInt8)} {x : List UInt8} (hx : xs ≠ []) :
    [a].intercalate (xs ++ [x]) = [a].intercalate xs ++ [a] ++ x := by
  induction xs with
  | nil => exact absurd rfl hx
  | cons y ys ih =>
    cases ys with
    | nil => simp [List.intercalate]
    | cons z zs =>
      have := ih (by simp)
      simp only [List.intercalate, List.cons_append, List.intersperse_cons_cons, List.flatten_cons]
        at this ⊢
      rw [this]
      simp

/-- A line of eight fields, the last of them the MAC of everything before the last separator. -/
def TgFormat (mac : HexMac) (text : List UInt8) (m : TgMsg) : Prop :=
  1 ≤ text.length ∧ text.length ≤ tgLineMax ∧
  ∃ counter op id hash validFrom validUntil region expected,
    text.splitOn bar = [ascii "v1", counter, op, id, hash, validFrom, validUntil, expected.toList] ∧
    text = region ++ bar :: expected.toList ∧ mac region = some expected ∧
    FieldsRead counter op id hash validFrom validUntil m

/-- A line of these fields and one more, the MAC of what stands before its separator. -/
def TgVerified (mac : HexMac) (text : List UInt8) (fields : List (List UInt8)) : Prop :=
  1 ≤ text.length ∧ text.length ≤ tgLineMax ∧ ∃ region expected,
    text.splitOn bar = fields ++ [expected.toList] ∧ text = region ++ bar :: expected.toList ∧
    mac region = some expected

theorem tgParse_verified {line counter op id hash validFrom validUntil : List UInt8} {mac : HexMac}
    (last : Nat)
    (h : TgVerified mac (cstr line) [ascii "v1", counter, op, id, hash, validFrom, validUntil]) :
    tgParse line last mac = parseFields last counter op id hash validFrom validUntil := by
  have h64 : tgMacHexLen = 64 := rfl
  obtain ⟨hlo, hhi, region, expected, hfields, htext, hmac⟩ := h
  have htake : (cstr line).take ((cstr line).length - expected.toList.length - 1) = region := by
    rw [htext]
    refine List.take_left' ?_
    simp
  unfold tgParse
  dsimp only
  rw [if_neg (by omega), hfields]
  dsimp only [List.cons_append, List.nil_append]
  rw [if_neg (by simp), htake, hmac]
  dsimp only
  rw [if_neg (by simp [h64, (ctEqual_iff rfl).mpr])]

/-- A line is refused with nothing read, or it verified. -/
theorem tgParse_cases (line : List UInt8) (last : Nat) (mac : HexMac) :
    (∃ counter op id hash validFrom validUntil,
      TgVerified mac (cstr line) [ascii "v1", counter, op, id, hash, validFrom, validUntil]) ∨
    ∃ r, r ≠ .ok ∧ tgParse line last mac = (r, .zero) := by
  have h64 : tgMacHexLen = 64 := rfl
  unfold tgParse
  dsimp only
  split_ifs with hlen
  · exact .inr ⟨_, by simp, rfl⟩
  split
  next version counter op id hash validFrom validUntil got hfields =>
    split_ifs with hversion
    · exact .inr ⟨_, by simp, rfl⟩
    split
    next => exact .inr ⟨_, by simp, rfl⟩
    next expected hmac =>
      split_ifs with hgot
      · exact .inr ⟨_, by simp, rfl⟩
      obtain ⟨hgl, heq⟩ := not_or.mp hgot
      have hexp : got = expected.toList := by
        have hl : got.length = expected.toList.length := by simpa [h64] using hgl
        exact (ctEqual_iff hl).mp (by simpa using heq)
      have htext : cstr line = [bar].intercalate
          [ascii "v1", counter, op, id, hash, validFrom, validUntil] ++ bar :: got := by
        have hjoin : [bar].intercalate ((cstr line).splitOn bar) = cstr line :=
          List.intercalate_splitOn bar
        rw [hfields, not_not.mp hversion] at hjoin
        rw [← hjoin, List.append_cons, ← intercalate_concat (by simp)]
        rfl
      have htake : (cstr line).take ((cstr line).length - got.length - 1) = [bar].intercalate
          [ascii "v1", counter, op, id, hash, validFrom, validUntil] := by
        rw [htext]
        refine List.take_left' ?_
        simp
        omega
      rw [htake] at hmac
      rw [not_not.mp hversion, hexp] at hfields
      rw [hexp] at htext
      exact .inl ⟨counter, op, id, hash, validFrom, validUntil, by omega, by omega, _, expected, hfields,
        htext, hmac⟩
  next => exact .inr ⟨_, by simp, rfl⟩

theorem tgParse_iff {line : List UInt8} {last : Nat} {mac : HexMac} {m : TgMsg} :
    tgParse line last mac = (.ok, m) ↔ TgFormat mac (cstr line) m ∧ last < m.counter := by
  constructor
  · intro h
    rcases tgParse_cases line last mac with
      ⟨counter, op, id, hash, validFrom, validUntil, hverified⟩ | ⟨r, hr, hbad⟩
    · rw [tgParse_verified last hverified] at h
      obtain ⟨hread, hlast⟩ := parseFields_iff.mp h
      obtain ⟨hlo, hhi, region, expected, hfields, htext, hmac⟩ := hverified
      exact ⟨⟨hlo, hhi, counter, op, id, hash, validFrom, validUntil, region, expected, hfields, htext,
        hmac, hread⟩, hlast⟩
    · exact absurd (Prod.mk.inj (hbad.symm.trans h)).1 hr
  · rintro ⟨⟨hlo, hhi, counter, op, id, hash, validFrom, validUntil, region, expected, hfields, htext,
      hmac, hread⟩, hlast⟩
    rw [tgParse_verified last ⟨hlo, hhi, region, expected, hfields, htext, hmac⟩]
    exact parseFields_iff.mpr ⟨hread, hlast⟩

theorem TgFormat.line {mac : HexMac} {text : List UInt8} {m : TgMsg} (h : TgFormat mac text m) :
    TgLine mac text m := by
  obtain ⟨_, _, counter, op, id, hash, validFrom, validUntil, region, expected, hfields, htext, hmac,
    hread⟩ := h
  have hjoin : [bar].intercalate (text.splitOn bar) = text := List.intercalate_splitOn bar
  have hconcat : [bar].intercalate
      ([ascii "v1", counter, op, id, hash, validFrom, validUntil] ++ [expected.toList]) =
        [bar].intercalate [ascii "v1", counter, op, id, hash, validFrom, validUntil] ++ [bar] ++
          expected.toList := intercalate_concat (by simp)
  rw [hfields] at hjoin
  have hsame := hconcat.symm.trans hjoin
  have hregion : region = [bar].intercalate
      [ascii "v1", counter, op, id, hash, validFrom, validUntil] := by
    rw [htext, List.append_assoc] at hsame
    exact (List.append_cancel_right hsame).symm
  rw [hregion] at hmac
  exact ⟨counter, op, id, hash, validFrom, validUntil, expected, hmac, hsame.symm, hread.say⟩

/-- Nothing is read as a message but a line that verified, above the counter held. -/
theorem tgParse_ok {line : List UInt8} {last : Nat} {mac : HexMac} {m : TgMsg}
    (h : tgParse line last mac = (.ok, m)) : TgLine mac (cstr line) m ∧ last < m.counter :=
  ⟨(tgParse_iff.mp h).1.line, (tgParse_iff.mp h).2⟩

theorem tgParse_counter {line : List UInt8} {last : Nat} {mac : HexMac} {m : TgMsg}
    (h : tgParse line last mac = (.ok, m)) (last' : Nat) (hl : last' < m.counter) :
    tgParse line last' mac = (.ok, m) :=
  tgParse_iff.mpr ⟨(tgParse_iff.mp h).1, hl⟩

/-- A line says one message, whatever counter it is read against. -/
theorem tgParse_unique {line : List UInt8} {last last' : Nat} {mac : HexMac} {m m' : TgMsg}
    (h : tgParse line last mac = (.ok, m)) (h' : tgParse line last' mac = (.ok, m')) : m = m' := by
  have hlt := (tgParse_ok h).2
  have hlt' := (tgParse_ok h').2
  have hm := tgParse_counter h (min last last') (by omega)
  have hm' := tgParse_counter h' (min last last') (by omega)
  rw [hm] at hm'
  exact (Prod.mk.inj hm').2

end GateAccess

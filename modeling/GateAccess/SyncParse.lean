import GateAccess.WireFields
import GateAccess.Decimals

namespace GateAccess

def syncBodyMax : Nat := 2048
def syncMacHexLen : Nat := 64
def endMarker : List UInt8 := newline :: ascii "end" ++ [newline]

inductive SyncParseResult
  | ok
  | format
  | version
  | gate
  | mac
  | truncated
  | entry
  | tooMany
  deriving DecidableEq

def SyncSet.zero : SyncSet := ⟨0, []⟩

def i64Loop : Nat → List UInt8 → Option Nat
  | v, [] => some v
  | v, c :: cs =>
    if !isDigit c then none
    else if v > (int64Max - (c.toNat - 48)) / 10 then none
    else i64Loop (v * 10 + (c.toNat - 48)) cs

def syncParseI64 (s : List UInt8) : Option Int :=
  if s.length = 0 ∨ s.length > 19 then none
  else if s.headD 0 = 45 then
    if s.length ≤ 1 then none else (i64Loop 0 s.tail).map fun v => -(v : Int)
  else (i64Loop 0 s).map fun v => (v : Int)

def syncParseU64 (s : List UInt8) : Option Nat :=
  match syncParseI64 s with
  | none => none
  | some v => if v < 0 then none else some v.toNat

/-- The entry of a line that starts with `code `; every refusal is `SYNC_PARSE_ENTRY`. -/
def parseCodeLine (line : List UInt8) : Option SyncEntry :=
  match (line.drop 5).splitOn 32 with
  | [id, hash, validFrom, validUntil] =>
    if id.length ≠ acIdLen - 1 then none
    else if !id.all fun c => (hexNibble c).isSome then none
    else if !(hexToBytes acHashLen hash).1 then none
    else
      match syncParseI64 validFrom, syncParseI64 validUntil with
      | some f, some u =>
        if u < f then none else some ⟨fill _ id, (hexToBytes acHashLen hash).2, f, u⟩
      | _, _ => none
  | _ => none

def parseCodes (out : SyncSet) : List (List UInt8) → SyncParseResult × SyncSet
  | [] => (.truncated, out)
  | line :: rest =>
    if line = ascii "end" then (.ok, out)
    else if !(ascii "code ").isPrefixOf line then (.format, out)
    else if out.entries.length ≥ syncMaxEntries then (.tooMany, out)
    else
      match parseCodeLine line with
      | none => (.entry, .zero)
      | some e => parseCodes { out with entries := out.entries ++ [e] } rest

/-- What `sync_parse` does with a region that verified. -/
def parseRegion (gateId region : List UInt8) : SyncParseResult × SyncSet :=
  match nextLine region with
  | none => (.format, .zero)
  | some (version, rest) =>
    if version ≠ ascii "portao-sync v1" then
      (if (ascii "portao-sync ").isPrefixOf version then .version else .format, .zero)
    else
      match nextLine rest with
      | none => (.format, .zero)
      | some (gate, rest) =>
        if !(ascii "gate ").isPrefixOf gate then (.format, .zero)
        else if gate.drop 5 ≠ gateId then (.gate, .zero)
        else
          match nextLine rest with
          | none => (.format, .zero)
          | some (gen, rest) =>
            if !(ascii "gen ").isPrefixOf gen then (.format, .zero)
            else
              match syncParseU64 (gen.drop 4) with
              | none => (.format, .zero)
              | some generation => parseCodes ⟨generation, []⟩ (linesOf rest)

/-- The result of `sync_parse` and what it leaves in `out`. -/
def syncParse (body gateId : List UInt8) (mac : HexMac) : SyncParseResult × SyncSet :=
  let text := cstr body
  if text.length = 0 ∨ text.length > syncBodyMax then (.format, .zero)
  else
    match strstr endMarker text with
    | none => (.truncated, .zero)
    | some marker =>
      let signedLen := marker + endMarker.length
      match mac (text.take signedLen) with
      | none => (.mac, .zero)
      | some expected =>
        let macLine := text.drop signedLen
        if !(ascii "mac ").isPrefixOf macLine then (.format, .zero)
        else
          let got := (macLine.drop 4).rdropWhile fun c => c = newline || c = 13
          if got.length ≠ syncMacHexLen ∨ !ctEqual got expected.toList then (.mac, .zero)
          else parseRegion gateId (text.take signedLen)

/-- The region a body is signed over: everything to the end of its first `end` line. -/
def signedRegion (text : List UInt8) : Option (List UInt8) :=
  (strstr endMarker text).map fun marker => text.take (marker + endMarker.length)

/-- The signed region is the front of the text, its `end` line included. -/
theorem signedRegion_split {text region : List UInt8} (h : signedRegion text = some region) :
    region <+: text ∧ endMarker <:+ region := by
  obtain ⟨marker, hmarker, rfl⟩ := Option.map_eq_some_iff.mp h
  obtain ⟨rest, hrest⟩ := strstr_some hmarker
  refine ⟨List.take_prefix _ _, text.take marker, ?_⟩
  rw [List.take_add, ← hrest, List.take_left']
  rfl

/-- The text is a region the MAC vouches for, its `mac` line, and line ends. -/
def SignedBy (mac : HexMac) (text region : List UInt8) : Prop :=
  ∃ expected trail, mac region = some expected ∧
    text = region ++ ascii "mac " ++ expected.toList ++ trail ∧
    ∀ c ∈ trail, c = newline ∨ c = 13

def CodeLine (line : List UInt8) (e : SyncEntry) : Prop :=
  ∃ id hash validFrom validUntil,
    line = ascii "code " ++ [32].intercalate [id, hash, validFrom, validUntil] ∧
    HexId id e.id ∧ hexToBytes acHashLen hash = (true, e.hash) ∧
    syncParseI64 validFrom = some e.validFrom ∧ syncParseI64 validUntil = some e.validUntil ∧
    e.validFrom ≤ e.validUntil

theorem i64Loop_iff {v w : Nat} {s : List UInt8} (hv : v ≤ int64Max) :
    i64Loop v s = some w ↔ s.all isDigit = true ∧ w = decFrom v s ∧ decFrom v s ≤ int64Max := by
  have hmax : int64Max = 2 ^ 63 - 1 := rfl
  induction s generalizing v with
  | nil =>
    simp only [i64Loop, Option.some_inj, List.all_nil, decFrom_nil, true_and]
    exact ⟨fun h => ⟨h.symm, hv⟩, fun h => h.1.symm⟩
  | cons c s ih =>
    rw [i64Loop, decFrom_cons]
    by_cases hc : isDigit c = true
    · have hd := isDigit_iff.mp hc
      simp only [hc, Bool.not_true, Bool.false_eq_true, if_false, List.all_cons, Bool.true_and]
      by_cases hover : v > (int64Max - (c.toNat - 48)) / 10
      · have hle := le_decFrom (v * 10 + (c.toNat - 48)) s
        rw [if_pos hover]
        refine ⟨fun h => by simp at h, fun ⟨_, _, h⟩ => ?_⟩
        omega
      · rw [if_neg hover]
        exact ih (by omega)
    · simp [hc]

/-- A numeral of at most 19 characters within `int64_t`. -/
def I64Numeral (s : List UInt8) (n : Int) : Prop :=
  Numeral s n ∧ s.length ≤ 19 ∧ -(2 ^ 63) ≤ n ∧ n < 2 ^ 63

theorem digits_head {s : List UInt8} (hs : s.all isDigit = true) : s.headD 0 ≠ 45 := by
  cases s with
  | nil => decide
  | cons c s =>
    rintro rfl
    simp [isDigit] at hs

theorem syncParseI64_eq (s : List UInt8) : syncParseI64 s =
    if s.length = 0 ∨ s.length > 19 then none
    else if s.headD 0 = 45 then
      if s.length ≤ 1 then none else (i64Loop 0 s.tail).map fun v : Nat => -(v : Int)
    else (i64Loop 0 s).map fun v : Nat => (v : Int) := by
  unfold syncParseI64
  cases i64Loop 0 s.tail <;> cases i64Loop 0 s <;> rfl

theorem syncParseI64_iff {s : List UInt8} {n : Int} : syncParseI64 s = some n ↔ I64Numeral s n := by
  have hmax : int64Max = 2 ^ 63 - 1 := rfl
  have h0 : 0 ≤ int64Max := Nat.zero_le _
  constructor
  · intro h
    rw [syncParseI64_eq] at h
    split_ifs at h with hlen hneg hone
    · obtain ⟨v, hv, rfl⟩ := Option.map_eq_some_iff.mp h
      cases s with
      | nil => simp at hneg
      | cons c t =>
        obtain rfl : c = 45 := hneg
        obtain ⟨hdig, rfl, hle⟩ := (i64Loop_iff h0).mp hv
        rw [List.tail_cons] at hdig hle ⊢
        have ht : t ≠ [] := fun h => hone (by simp [h])
        exact ⟨.negative t ht hdig, by omega, by omega, by omega⟩
    · obtain ⟨v, hv, rfl⟩ := Option.map_eq_some_iff.mp h
      obtain ⟨hdig, rfl, hle⟩ := (i64Loop_iff h0).mp hv
      have hs : s ≠ [] := fun h => hlen (by simp [h])
      exact ⟨.unsigned s hs hdig, by omega, by omega, by omega⟩
  · rintro ⟨hnum, hlen, hlo, hhi⟩
    rw [syncParseI64_eq]
    cases hnum with
    | unsigned _ hs hdig =>
      have hpos := List.length_pos_iff.mpr hs
      rw [if_neg (by omega), if_neg (digits_head hdig), (i64Loop_iff h0).mpr ⟨hdig, rfl, by omega⟩]
      rfl
    | negative t ht hdig =>
      have hpos := List.length_pos_iff.mpr ht
      rw [List.length_cons] at hlen ⊢
      have hlt : decFrom 0 t < 1 * 10 ^ t.length := decFrom_lt hdig
      have hpow : 10 ^ t.length ≤ 10 ^ 18 := Nat.pow_le_pow_right (by decide) (by omega)
      rw [if_neg (by omega), if_pos List.headD_cons, if_neg (by omega), List.tail_cons,
        (i64Loop_iff h0).mpr ⟨hdig, rfl, by omega⟩]
      rfl

theorem syncParseU64_iff {s : List UInt8} {n : Nat} : syncParseU64 s = some n ↔ I64Numeral s n := by
  rw [← syncParseI64_iff]
  unfold syncParseU64
  cases syncParseI64 s with
  | none => simp
  | some v =>
    simp only [Option.some_inj]
    split_ifs with hv
    · simp only [false_iff]
      omega
    · rw [Option.some_inj]
      omega

theorem parseCodeLine_iff {line : List UInt8} {e : SyncEntry}
    (hp : (ascii "code ").isPrefixOf line = true) :
    parseCodeLine line = some e ↔ CodeLine line e := by
  have hsplit : line = ascii "code " ++ line.drop 5 := startsWith_split _ _ hp
  constructor
  · intro h
    have hjoin : [32].intercalate ((line.drop 5).splitOn 32) = line.drop 5 :=
      List.intercalate_splitOn 32
    unfold parseCodeLine at h
    split at h
    next id hash validFrom validUntil hfields =>
      rw [hfields] at hjoin
      split_ifs at h with hlen hhex hhash
      split at h
      next f u hf hu =>
        split_ifs at h with hw
        obtain rfl := Option.some.inj h
        refine ⟨id, hash, validFrom, validUntil, by rw [hjoin]; exact hsplit,
          hexId_fill (by simpa using hlen) (by simpa only [Bool.not_eq_true, Bool.not_eq_false'] using hhex),
          ?_, hf, hu, by simpa using hw⟩
        rw [← show (hexToBytes acHashLen hash).1 = true by simpa using hhash]
      next => simp at h
    next => simp at h
  · rintro ⟨id, hash, validFrom, validUntil, hline, hid, hhash, hf, hu, hw⟩
    have hdrop : line.drop 5 = [32].intercalate [id, hash, validFrom, validUntil] := by
      rw [hline]
      exact List.drop_left' rfl
    have hspaces : (line.drop 5).splitOn 32 = [id, hash, validFrom, validUntil] := by
      rw [hdrop]
      refine List.splitOn_intercalate 32 ?_ (by simp)
      intro field hfield
      simp only [List.mem_cons, List.not_mem_nil, or_false] at hfield
      rcases hfield with rfl | rfl | rfl | rfl
      · exact not_mem_hex (by decide) hid.2.1
      · rw [hexToBytes_iff.mp hhash]
        exact not_mem_hex (by decide) (hexText_isHex _)
      · exact (syncParseI64_iff.mp hf).1.not_mem (by decide) (by decide)
      · exact (syncParseI64_iff.mp hu).1.not_mem (by decide) (by decide)
    have hhex : (id.all fun c => (hexNibble c).isSome) = true := by simpa only [isHex_nibble] using hid.2.1
    unfold parseCodeLine
    rw [hspaces]
    dsimp only
    rw [if_neg (by simp [hid.1]), if_neg (by simp [hhex]), hhash, hf, hu]
    simp only [Bool.not_true, Bool.false_eq_true, if_false, if_neg (not_lt.mpr hw), ← hid.eq_fill]

theorem CodeLine.backend {line : List UInt8} {e : SyncEntry} (h : CodeLine line e) :
    entryRefused e = false := by
  obtain ⟨id, hash, validFrom, validUntil, _, hid, _, _, _, hw⟩ := h
  simp [entryRefused, hid.idIsBackend, hw]

theorem code_ne_end {line : List UInt8} (h : (ascii "code ").isPrefixOf line = true) :
    line ≠ ascii "end" := by
  rintro rfl
  revert h
  decide

theorem CodeLine.isPrefix {line : List UInt8} {e : SyncEntry} (h : CodeLine line e) :
    (ascii "code ").isPrefixOf line = true := by
  obtain ⟨id, hash, validFrom, validUntil, hline, _⟩ := h
  rw [hline, List.isPrefixOf_iff_prefix]
  exact List.prefix_append _ _

/-- The body of a set is code lines up to the first `end`, no more than the device can hold. -/
theorem parseCodes_iff {out set : SyncSet} {lines : List (List UInt8)} :
    parseCodes out lines = (.ok, set) ↔ ∃ codes es after,
      lines = codes ++ ascii "end" :: after ∧ List.Forall₂ CodeLine codes es ∧
      set = ⟨out.generation, out.entries ++ es⟩ ∧
      (es = [] ∨ (out.entries ++ es).length ≤ syncMaxEntries) := by
  induction lines generalizing out with
  | nil => simp [parseCodes]
  | cons line rest ih =>
    rw [parseCodes]
    by_cases hend : line = ascii "end"
    · rw [if_pos hend]
      constructor
      · intro h
        obtain ⟨_, rfl⟩ := Prod.mk.inj h
        exact ⟨[], [], rest, by rw [hend]; rfl, .nil, by simp, Or.inl rfl⟩
      · rintro ⟨codes, es, after, hlines, hcodes, rfl, _⟩
        cases hcodes with
        | nil => simp
        | cons hline =>
          rw [List.cons_append, List.cons.injEq] at hlines
          exact absurd hend (hlines.1 ▸ code_ne_end hline.isPrefix)
    · rw [if_neg hend]
      by_cases hcode : (ascii "code ").isPrefixOf line = true
      · rw [if_neg (by simp [hcode])]
        by_cases hfull : out.entries.length ≥ syncMaxEntries
        · rw [if_pos hfull]
          refine ⟨fun h => by simp at h, ?_⟩
          rintro ⟨codes, es, after, hlines, hcodes, _, hfew⟩
          cases hcodes with
          | nil => exact absurd (List.cons.inj hlines).1 hend
          | cons => simp at hfew; omega
        · rw [if_neg hfull]
          cases hread : parseCodeLine line with
          | none =>
            refine ⟨fun h => by simp at h, ?_⟩
            rintro ⟨codes, es, after, hlines, hcodes, _⟩
            cases hcodes with
            | nil => exact absurd (List.cons.inj hlines).1 hend
            | cons hline =>
              rw [← (List.cons.inj hlines).1, ← parseCodeLine_iff hcode, hread] at hline
              simp at hline
          | some e =>
            have hline := (parseCodeLine_iff hcode).mp hread
            dsimp only
            rw [ih]
            constructor
            · rintro ⟨codes, es, after, hrest, hcodes, rfl, hfew⟩
              refine ⟨line :: codes, e :: es, after, by rw [hrest]; rfl, .cons hline hcodes, by simp,
                Or.inr ?_⟩
              rcases hfew with rfl | hfew
              · simp; omega
              · simpa using hfew
            · rintro ⟨codes, es, after, hlines, hcodes, rfl, hfew⟩
              cases hcodes with
              | nil => exact absurd (List.cons.inj hlines).1 hend
              | cons hline' hcodes =>
                obtain ⟨rfl, hrest⟩ := List.cons.inj hlines
                rw [← parseCodeLine_iff hcode, hread] at hline'
                obtain rfl := Option.some.inj hline'
                exact ⟨_, _, after, hrest, hcodes, by simp, Or.inr (by simpa using hfew)⟩
      · rw [if_pos (by simp [hcode])]
        refine ⟨fun h => by simp at h, ?_⟩
        rintro ⟨codes, es, after, hlines, hcodes, _⟩
        cases hcodes with
        | nil => exact absurd (List.cons.inj hlines).1 hend
        | cons hline =>
          exact absurd ((List.cons.inj hlines).1 ▸ hline.isPrefix) hcode

/-- A region this device takes: addressed to it, with the set's entries among its code lines. -/
structure RegionHolds (gateId region : List UInt8) (set : SyncSet) : Prop where
  addressed : ∃ version gate rest, linesOf region = version :: gate :: rest ∧
    gate = ascii "gate " ++ gateId
  entries : ∀ e ∈ set.entries, ∃ line ∈ linesOf region, CodeLine line e
  few : set.entries.length ≤ syncMaxEntries

/-- The lines of a region that reads as a set. -/
def RegionSays (gateId : List UInt8) (lines : List (List UInt8)) (set : SyncSet) : Prop :=
  ∃ gen codes after, lines = ascii "portao-sync v1" :: (ascii "gate " ++ gateId) ::
      (ascii "gen " ++ gen) :: (codes ++ ascii "end" :: after) ∧
    I64Numeral gen set.generation ∧ List.Forall₂ CodeLine codes set.entries ∧
    set.entries.length ≤ syncMaxEntries

theorem nextLine_of_lines {s line : List UInt8} {ls : List (List UInt8)} (h : linesOf s = line :: ls) :
    ∃ rest, nextLine s = some (line, rest) ∧ linesOf rest = ls := by
  rw [linesOf_nextLine] at h
  cases hn : nextLine s with
  | none => simp [hn] at h
  | some read =>
    obtain ⟨first, rest⟩ := read
    rw [hn] at h
    obtain ⟨rfl, hrest⟩ := List.cons.inj h
    exact ⟨rest, rfl, hrest⟩

/-- A region with this head comes down to the walk over its code lines. -/
theorem parseRegion_head {gateId region gen : List UInt8} {generation : Nat}
    {lines : List (List UInt8)}
    (hlines : linesOf region = ascii "portao-sync v1" :: (ascii "gate " ++ gateId) ::
      (ascii "gen " ++ gen) :: lines) (hgen : I64Numeral gen generation) :
    parseRegion gateId region = parseCodes ⟨generation, []⟩ lines := by
  obtain ⟨rest, hversion, hrest⟩ := nextLine_of_lines hlines
  obtain ⟨rest', hgate, hrest'⟩ := nextLine_of_lines hrest
  obtain ⟨rest'', hgenLine, hrest''⟩ := nextLine_of_lines hrest'
  have hhead : ∀ pre l : List UInt8, pre.isPrefixOf (pre ++ l) = true := fun pre l =>
    List.isPrefixOf_iff_prefix.mpr (List.prefix_append pre l)
  have hgateId : (ascii "gate " ++ gateId).drop 5 = gateId := List.drop_left' rfl
  have hgenText : (ascii "gen " ++ gen).drop 4 = gen := List.drop_left' rfl
  unfold parseRegion
  rw [hversion]
  dsimp only
  rw [if_neg (by simp), hgate]
  dsimp only
  rw [if_neg (by simp [hhead]), if_neg (by simp [hgateId]), hgenLine]
  dsimp only
  rw [if_neg (by simp [hhead]), hgenText, syncParseU64_iff.mpr hgen, ← hrest'']

/-- A region is refused with nothing read, or has that head. -/
theorem parseRegion_cases (gateId region : List UInt8) :
    (∃ gen generation lines, linesOf region = ascii "portao-sync v1" :: (ascii "gate " ++ gateId) ::
      (ascii "gen " ++ gen) :: lines ∧ I64Numeral gen (generation : Nat)) ∨
    ∃ r, r ≠ .ok ∧ parseRegion gateId region = (r, .zero) := by
  unfold parseRegion
  split
  next => exact .inr ⟨_, by simp, rfl⟩
  next version rest hversion =>
    split_ifs with hv hpre
    · exact .inr ⟨_, by simp, rfl⟩
    · exact .inr ⟨_, by simp, rfl⟩
    split
    next => exact .inr ⟨_, by simp, rfl⟩
    next gate rest' hgate =>
      split_ifs with hg hid
      · exact .inr ⟨_, by simp, rfl⟩
      · exact .inr ⟨_, by simp, rfl⟩
      split
      next => exact .inr ⟨_, by simp, rfl⟩
      next gen rest'' hgen =>
        split_ifs with hgn
        · exact .inr ⟨_, by simp, rfl⟩
        split
        next => exact .inr ⟨_, by simp, rfl⟩
        next generation hread =>
          refine .inl ⟨gen.drop 4, generation, linesOf rest'', ?_, syncParseU64_iff.mp hread⟩
          rw [nextLine_lines hversion, nextLine_lines hgate, nextLine_lines hgen, not_not.mp hv,
            ← not_not.mp hid]
          have hg' := startsWith_split (ascii "gate ") gate (by simpa using hg)
          have hgn' := startsWith_split (ascii "gen ") gen (by simpa using hgn)
          exact congrArg₂ (fun a b => _ :: a :: b :: _) hg' hgn'

theorem parseRegion_iff {gateId region : List UInt8} {set : SyncSet} :
    parseRegion gateId region = (.ok, set) ↔ RegionSays gateId (linesOf region) set := by
  constructor
  · intro h
    rcases parseRegion_cases gateId region with ⟨gen, generation, lines, hlines, hgen⟩ | ⟨r, hr, hbad⟩
    · rw [parseRegion_head hlines hgen] at h
      obtain ⟨codes, es, after, rfl, hsaid, rfl, hfew⟩ := parseCodes_iff.mp h
      refine ⟨gen, codes, after, hlines, hgen, hsaid, ?_⟩
      rcases hfew with rfl | hfew
      · simp
      · simpa using hfew
    · exact absurd (Prod.mk.inj (hbad.symm.trans h)).1 hr
  · rintro ⟨gen, codes, after, hlines, hgen, hcodes, hfew⟩
    rw [parseRegion_head hlines hgen]
    exact parseCodes_iff.mpr ⟨codes, set.entries, after, rfl, hcodes, rfl, Or.inr hfew⟩

theorem forall₂_mem_right {α β : Type*} {R : α → β → Prop} {xs : List α} {ys : List β}
    (h : List.Forall₂ R xs ys) : ∀ y ∈ ys, ∃ x ∈ xs, R x y := by
  induction h with
  | nil => simp
  | cons hr _ ih =>
    intro y hy
    rcases List.mem_cons.mp hy with rfl | hy
    · exact ⟨_, List.mem_cons_self, hr⟩
    · obtain ⟨x, hx, hxy⟩ := ih y hy
      exact ⟨x, List.mem_cons_of_mem _ hx, hxy⟩

theorem parseRegion_ok {gateId region : List UInt8} {set : SyncSet}
    (h : parseRegion gateId region = (.ok, set)) : RegionHolds gateId region set := by
  obtain ⟨gen, codes, after, hlines, _, hcodes, hfew⟩ := parseRegion_iff.mp h
  refine ⟨⟨_, _, _, hlines, rfl⟩, fun e he => ?_, hfew⟩
  obtain ⟨line, hline, hsaid⟩ := forall₂_mem_right hcodes e he
  exact ⟨line, by rw [hlines]; simp [hline], hsaid⟩

/-- The text is a region, and the line after it carries the region's MAC. -/
def SyncVerified (mac : HexMac) (text region : List UInt8) : Prop :=
  text.length ≤ syncBodyMax ∧ signedRegion text = some region ∧
    ∃ expected line, mac region = some expected ∧ text = region ++ ascii "mac " ++ line ∧
      line.rdropWhile (fun c => c = newline || c = 13) = expected.toList

theorem syncParse_verified {body gateId region : List UInt8} {mac : HexMac}
    (h : SyncVerified mac (cstr body) region) :
    syncParse body gateId mac = parseRegion gateId region := by
  obtain ⟨hlen, hregion, expected, line, hmac, htext, hgot⟩ := h
  obtain ⟨marker, hmarker, htake⟩ := Option.map_eq_some_iff.mp hregion
  have hpos : (cstr body).length ≠ 0 := by
    intro h0
    rw [List.length_eq_zero_iff.mp h0] at hmarker
    simp [strstr, endMarker] at hmarker
  have hrest : (cstr body).drop (marker + endMarker.length) = ascii "mac " ++ line := by
    have hsplit := List.take_append_drop (marker + endMarker.length) (cstr body)
    rw [htake] at hsplit
    refine (List.append_right_inj region).mp ?_
    rw [hsplit, htext, List.append_assoc]
  have hdrop : (ascii "mac " ++ line).drop 4 = line := List.drop_left' rfl
  have hhead : (ascii "mac ").isPrefixOf (ascii "mac " ++ line) = true :=
    List.isPrefixOf_iff_prefix.mpr (List.prefix_append _ _)
  have h64 : syncMacHexLen = 64 := rfl
  unfold syncParse
  dsimp only
  rw [if_neg (not_or.mpr ⟨hpos, not_lt.mpr hlen⟩), hmarker]
  dsimp only
  rw [htake, hmac]
  dsimp only
  rw [hrest, hdrop, hgot, if_neg (by simp [hhead]), if_neg (by simp [h64])]

/-- A body is refused with nothing read, or its region verified. -/
theorem syncParse_cases (body gateId : List UInt8) (mac : HexMac) :
    (∃ region, SyncVerified mac (cstr body) region) ∨
      ∃ r, r ≠ .ok ∧ syncParse body gateId mac = (r, .zero) := by
  unfold syncParse
  dsimp only
  split_ifs with hlen
  · exact .inr ⟨_, by simp, rfl⟩
  split
  next => exact .inr ⟨_, by simp, rfl⟩
  next marker hmarker =>
    split
    next => exact .inr ⟨_, by simp, rfl⟩
    next expected hmac =>
      split_ifs with hpre hgot
      · exact .inr ⟨_, by simp, rfl⟩
      · exact .inr ⟨_, by simp, rfl⟩
      set text := cstr body
      set macLine := text.drop (marker + endMarker.length) with hline
      obtain ⟨hgl, heq⟩ := not_or.mp hgot
      have h64 : syncMacHexLen = 64 := rfl
      refine .inl ⟨text.take (marker + endMarker.length), by omega, by rw [signedRegion, hmarker]; rfl,
        expected, macLine.drop 4, hmac, ?_, ?_⟩
      · have hsplit : macLine = ascii "mac " ++ macLine.drop 4 :=
          startsWith_split _ _ (by simpa using hpre)
        rw [List.append_assoc, ← hsplit, hline, List.take_append_drop]
      · exact (ctEqual_iff (by simpa [h64] using hgl)).mp (by simpa using heq)

theorem syncParse_signed {body gateId : List UInt8} {mac : HexMac} {set : SyncSet}
    (h : syncParse body gateId mac = (.ok, set)) :
    (cstr body).length ≤ syncBodyMax ∧ ∃ region, signedRegion (cstr body) = some region ∧
      SignedBy mac (cstr body) region ∧ parseRegion gateId region = (.ok, set) := by
  rcases syncParse_cases body gateId mac with ⟨region, hverified⟩ | ⟨r, hr, hbad⟩
  · rw [syncParse_verified hverified] at h
    obtain ⟨hlen, hregion, expected, line, hmac, htext, hgot⟩ := hverified
    refine ⟨hlen, region, hregion,
      ⟨expected, line.rtakeWhile (fun c => c = newline || c = 13), hmac, ?_, ?_⟩, h⟩
    · rw [← hgot, List.append_assoc _ (List.rdropWhile _ _), List.rdropWhile_append_rtakeWhile, htext]
    · intro c hc
      simpa using List.mem_rtakeWhile_imp hc
  · exact absurd (Prod.mk.inj (hbad.symm.trans h)).1 hr

/-- Nothing is read as a set but a region that verified. -/
theorem syncParse_ok {body gateId : List UInt8} {mac : HexMac} {set : SyncSet}
    (h : syncParse body gateId mac = (.ok, set)) :
    ∃ region, signedRegion (cstr body) = some region ∧ SignedBy mac (cstr body) region ∧
      RegionHolds gateId region set := by
  obtain ⟨_, region, hregion, hsigned, hread⟩ := syncParse_signed h
  exact ⟨region, hregion, hsigned, parseRegion_ok hread⟩

end GateAccess

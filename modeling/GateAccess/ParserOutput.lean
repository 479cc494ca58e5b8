import GateAccess.SyncFormat
import GateAccess.TgProto

namespace GateAccess

/-- Lines that end the walk over the codes without the `memset` a bad code line gets: none left, a line
that is no code, or one code too many. -/
def StopsFull (read : Nat) : List (List UInt8) → Prop
  | [] => True
  | line :: _ => line ≠ ascii "end" ∧
      ((ascii "code ").isPrefixOf line = false ∨ read ≥ syncMaxEntries)

/-- Codes that are read, then a line that ends the walk with something read by then. -/
def CodesLeft (out : SyncSet) (lines : List (List UInt8)) : Prop :=
  ∃ codes es tail, lines = codes ++ tail ∧ List.Forall₂ CodeLine codes es ∧
    (out.entries ++ es).length ≤ syncMaxEntries ∧ StopsFull (out.entries ++ es).length tail ∧
    (out.generation ≠ 0 ∨ out.entries ++ es ≠ [])

/-- A verified set for this gate that stops early, with a generation or some codes read by then. -/
def SyncLeaves (mac : HexMac) (gateId text : List UInt8) : Prop :=
  ∃ region gen generation lines, SyncVerified mac text region ∧
    linesOf region = ascii "portao-sync v1" :: (ascii "gate " ++ gateId) :: (ascii "gen " ++ gen) ::
      lines ∧
    I64Numeral gen (generation : Nat) ∧ CodesLeft ⟨generation, []⟩ lines

/-- A verified add under a fresh counter and a backend id, whose hash or window is refused. -/
def TgLeaves (mac : HexMac) (text : List UInt8) (last : Nat) : Prop :=
  ∃ counter id hash validFrom validUntil c,
    TgVerified mac text [ascii "v1", counter, ascii "add", id, hash, validFrom, validUntil] ∧
    tgParseU64 counter = some c ∧ last < c ∧ id.length = acIdLen - 1 ∧ id.all isHex = true ∧
    ∀ m, ¬AddSays hash validFrom validUntil m

theorem SyncSet.ne_zero {out : SyncSet} : out ≠ .zero ↔ out.generation ≠ 0 ∨ out.entries ≠ [] := by
  cases out
  simp only [SyncSet.zero, ne_eq, SyncSet.mk.injEq]
  tauto

/-- At a line that is no code of the set, what has been read so far is left or nothing is. -/
theorem codesLeft_stop {out : SyncSet} {lines : List (List UInt8)}
    (hroom : out.entries.length ≤ syncMaxEntries)
    (hstop : ∀ line rest e, lines = line :: rest → CodeLine line e →
      out.entries.length ≥ syncMaxEntries) :
    CodesLeft out lines ↔ StopsFull out.entries.length lines ∧ out ≠ .zero := by
  rw [SyncSet.ne_zero]
  constructor
  · rintro ⟨codes, es, tail, hlines, hcodes, hfew, hfull, hleft⟩
    cases hcodes with
    | nil => simpa [hlines] using And.intro hfull hleft
    | cons hline _ =>
      have hmany := hstop _ _ _ hlines hline
      simp only [List.length_append, List.length_cons] at hfew
      omega
  · rintro ⟨hfull, hleft⟩
    exact ⟨[], [], lines, rfl, .nil, by simpa using hroom, by simpa using hfull, by simpa using hleft⟩

theorem codesLeft_cons {out : SyncSet} {line : List UInt8} {rest : List (List UInt8)} {e : SyncEntry}
    (hline : CodeLine line e) (hroom : out.entries.length < syncMaxEntries) :
    CodesLeft out (line :: rest) ↔ CodesLeft { out with entries := out.entries ++ [e] } rest := by
  have hhead := hline.isPrefix
  constructor
  · rintro ⟨codes, es, tail, hlines, hcodes, hfew, hfull, hleft⟩
    cases hcodes with
    | nil =>
      obtain rfl : tail = line :: rest := hlines.symm
      rcases hfull.2 with hcode | hmany
      · rw [hhead] at hcode
        cases hcode
      · rw [List.append_nil] at hmany
        omega
    | @cons _ e' codes es hline' hcodes =>
      obtain ⟨rfl, hrest⟩ := List.cons.inj hlines
      rw [← parseCodeLine_iff hhead] at hline hline'
      obtain rfl := Option.some.inj (hline.symm.trans hline')
      exact ⟨codes, es, tail, hrest, hcodes, by simpa using hfew, by simpa using hfull,
        by simp⟩
  · rintro ⟨codes, es, tail, hrest, hcodes, hfew, hfull, -⟩
    exact ⟨line :: codes, e :: es, tail, by rw [hrest]; rfl, .cons hline hcodes, by simpa using hfew,
      by simpa using hfull, by simp⟩

theorem parseCodes_left {out : SyncSet} {lines : List (List UInt8)}
    (hroom : out.entries.length ≤ syncMaxEntries) :
    (parseCodes out lines).1 ≠ .ok ∧ (parseCodes out lines).2 ≠ .zero ↔ CodesLeft out lines := by
  induction lines generalizing out with
  | nil =>
    rw [codesLeft_stop hroom (by simp)]
    simp [parseCodes, StopsFull]
  | cons line rest ih =>
    rw [parseCodes]
    by_cases hend : line = ascii "end"
    · rw [if_pos hend, codesLeft_stop hroom, hend]
      · simp [StopsFull]
      · rintro line' rest' e hlines hline
        exact absurd ((List.cons.inj hlines).1.symm.trans hend) (code_ne_end hline.isPrefix)
    rw [if_neg hend]
    by_cases hcode : (ascii "code ").isPrefixOf line = true
    · rw [if_neg (by simp [hcode])]
      by_cases hfull : out.entries.length ≥ syncMaxEntries
      · rw [if_pos hfull, codesLeft_stop hroom fun _ _ _ _ _ => hfull]
        simp [StopsFull, hend, hfull]
      · rw [if_neg hfull]
        cases hread : parseCodeLine line with
        | none =>
          rw [codesLeft_stop hroom]
          · simp [StopsFull, hcode]
            omega
          · rintro line' rest' e hlines hline
            obtain rfl := (List.cons.inj hlines).1
            rw [← parseCodeLine_iff hcode, hread] at hline
            cases hline
        | some e =>
          rw [codesLeft_cons ((parseCodeLine_iff hcode).mp hread) (by omega)]
          exact ih (by simp; omega)
    · rw [if_pos (by simp [hcode]), codesLeft_stop hroom]
      · simp [StopsFull, hend, hcode]
      · rintro line' rest' e hlines hline
        exact absurd ((List.cons.inj hlines).1 ▸ hline.isPrefix) hcode

theorem syncParse_left (body gateId : List UInt8) (mac : HexMac) :
    (syncParse body gateId mac).1 ≠ .ok ∧ (syncParse body gateId mac).2 ≠ .zero ↔
      SyncLeaves mac gateId (cstr body) := by
  constructor
  · rintro ⟨hbad, hleft⟩
    rcases syncParse_cases body gateId mac with ⟨region, hverified⟩ | ⟨r, -, hzero⟩
    · rw [syncParse_verified hverified] at hbad hleft
      rcases parseRegion_cases gateId region with ⟨gen, generation, lines, hlines, hgen⟩ | ⟨r, -, hzero⟩
      · rw [parseRegion_head hlines hgen] at hbad hleft
        exact ⟨region, gen, generation, lines, hverified, hlines, hgen,
          (parseCodes_left (Nat.zero_le _)).mp ⟨hbad, hleft⟩⟩
      · exact absurd (congrArg Prod.snd hzero) hleft
    · exact absurd (congrArg Prod.snd hzero) hleft
  · rintro ⟨region, gen, generation, lines, hverified, hlines, hgen, hleft⟩
    rw [syncParse_verified hverified, parseRegion_head hlines hgen]
    exact (parseCodes_left (Nat.zero_le _)).mpr hleft

/-- What is refused of an add leaves its id behind. -/
theorem parseAdd_id (out : TgMsg) (hash validFrom validUntil : List UInt8) :
    (parseAdd out hash validFrom validUntil).2.id = out.id := by
  unfold parseAdd
  dsimp only
  split_ifs
  · rfl
  split
  next => rfl
  next =>
    split
    next => rfl
    next => split_ifs <;> rfl

theorem fill_id_ne {id : List UInt8} (hlen : id.length = acIdLen - 1) (hhex : id.all isHex = true) :
    fill acIdLen id ≠ zeros acIdLen := by
  intro hzero
  have hnib : (id.all fun c => (hexNibble c).isSome) = true := by simpa only [isHex_nibble] using hhex
  have hid := (hexId_fill hlen hnib).cstr_eq
  rw [hzero] at hid
  have hempty : cstr (zeros acIdLen).toList = [] := by decide
  rw [← hid, hempty] at hlen
  cases hlen

theorem parseFields_left {last : Nat} {counter op id hash validFrom validUntil : List UInt8} :
    (parseFields last counter op id hash validFrom validUntil).1 ≠ .ok ∧
      (parseFields last counter op id hash validFrom validUntil).2 ≠ .zero ↔
    ∃ c, tgParseU64 counter = some c ∧ last < c ∧ op = ascii "add" ∧ id.length = acIdLen - 1 ∧
      id.all isHex = true ∧ ∀ m, ¬AddSays hash validFrom validUntil m := by
  constructor
  · intro h
    unfold parseFields at h
    split at h
    next => exact absurd rfl h.2
    next c hc =>
      split at h
      next => exact absurd rfl h.2
      next hlast =>
        split at h
        next => exact absurd rfl h.2
        next o ho =>
          split_ifs at h with hlen hhex
          · exact absurd rfl h.2
          · exact absurd rfl h.2
          split at h
          next => exact absurd rfl h.1
          next =>
            have hop : op = ascii "add" := by simpa using readOp_iff.mp ho
            refine ⟨c, hc, by omega, hop, not_not.mp hlen, by simpa [isHex_nibble] using hhex, ?_⟩
            intro m hsaid
            dsimp only at h
            split_ifs at h with hok
            · exact absurd rfl h.1
            · have hpart := (@parseAdd_iff { TgMsg.zero with id := fill acIdLen id }
                ⟨0, .add, fill acIdLen id, m.hash, m.validFrom, m.validUntil⟩ _ _ _).mpr
                ⟨⟨hsaid.hash, hsaid.validFrom, hsaid.validUntil, hsaid.window⟩, rfl⟩
              exact hok (congrArg Prod.fst hpart)
  · rintro ⟨c, hc, hlast, rfl, hlen, hhex, hrefused⟩
    have hnib : (id.all fun c => (hexNibble c).isSome) = true := by simpa only [isHex_nibble] using hhex
    have hop : readOp (ascii "add") = some .add := readOp_iff.mpr (.inl ⟨rfl, rfl⟩)
    unfold parseFields
    rw [hc]
    dsimp only
    rw [if_neg (by omega), hop]
    dsimp only
    rw [if_neg (by simp [hlen]), if_neg (by simp [hnib])]
    set added := parseAdd { TgMsg.zero with id := fill acIdLen id } hash validFrom validUntil with hadded
    have hbad : added.1 ≠ .ok := fun hok => hrefused _ (parseAdd_iff.mp (Prod.ext hok rfl)).1
    rw [if_neg hbad]
    refine ⟨hbad, fun hzero => fill_id_ne hlen hhex ?_⟩
    have hid := parseAdd_id { TgMsg.zero with id := fill acIdLen id } hash validFrom validUntil
    rw [← hadded, hzero] at hid
    exact hid.symm

theorem tgParse_left (line : List UInt8) (last : Nat) (mac : HexMac) :
    (tgParse line last mac).1 ≠ .ok ∧ (tgParse line last mac).2 ≠ .zero ↔
      TgLeaves mac (cstr line) last := by
  constructor
  · rintro ⟨hbad, hleft⟩
    rcases tgParse_cases line last mac with
      ⟨counter, op, id, hash, validFrom, validUntil, hverified⟩ | ⟨r, -, hzero⟩
    · rw [tgParse_verified last hverified] at hbad hleft
      obtain ⟨c, hc, hlast, rfl, hid⟩ := parseFields_left.mp ⟨hbad, hleft⟩
      exact ⟨counter, id, hash, validFrom, validUntil, c, hverified, hc, hlast, hid⟩
    · exact absurd (congrArg Prod.snd hzero) hleft
  · rintro ⟨counter, id, hash, validFrom, validUntil, c, hverified, hc, hlast, hid⟩
    rw [tgParse_verified last hverified]
    exact parseFields_left.mpr ⟨c, hc, hlast, rfl, hid⟩

/-- A parser that fails leaves its output zero, unless it stops with a set or an add half read. -/
theorem parsers_all_or_nothing_iff (body gateId line : List UInt8) (last : Nat) (mac : HexMac) :
    (((syncParse body gateId mac).1 ≠ .ok → (syncParse body gateId mac).2 = .zero) ↔
      ¬SyncLeaves mac gateId (cstr body)) ∧
    (((tgParse line last mac).1 ≠ .ok → (tgParse line last mac).2 = .zero) ↔
      ¬TgLeaves mac (cstr line) last) := by
  constructor
  · rw [← syncParse_left]
    tauto
  · rw [← tgParse_left]
    tauto

def zeroMac : HexMac := fun _ => some (fill _ (List.replicate 64 48))

/-- A set with a stray line keeps its generation, and an add with no hash its id. -/
theorem refused_output_kept :
    (syncParse (ascii "portao-sync v1\ngate g\ngen 5\nxyz\nend\nmac " ++ List.replicate 64 48) (ascii "g")
      zeroMac = (.format, ⟨5, []⟩) ∧ (⟨5, []⟩ : SyncSet) ≠ .zero) ∧
    (tgParse (ascii "v1|1|add|00000000|-|0|0|" ++ List.replicate 64 48) 0 zeroMac =
        (.errHash, { TgMsg.zero with id := fill _ (ascii "00000000") }) ∧
      { TgMsg.zero with id := fill _ (ascii "00000000") } ≠ TgMsg.zero) := by
  decide +kernel

end GateAccess

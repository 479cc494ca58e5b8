import GateAccess.TransientIds

namespace GateAccess

/-- What reaches the table: a console code, a set from the network whatever it says, a line from
the network, and the end of a console session. -/
inductive TableEvent
  | dev (n : UInt32) (hash : Bytes acHashLen) (validFrom validUntil : Int)
  | sync (ctx : SyncCtx) (set : SyncSet) (nowMs : UInt32)
  | telegram (line : List UInt8) (lastCounter : Nat) (mac : HexMac)
  | sessionEnd

def tableStep (table : AcCtx) : TableEvent → AcCtx
  | .dev n hash validFrom validUntil =>
    (acUpsertTransient table (devId n) hash validFrom validUntil).1
  | .sync ctx set nowMs => (syncApply ctx table set nowMs).2.1
  | .telegram line lastCounter mac =>
    let parsed := tgParse line lastCounter mac
    if parsed.1 = .ok then tgApply table parsed.2 else table
  | .sessionEnd => acRevokeTransient table

/-- The transient slots were made by the console. -/
def DevCodes (table : AcCtx) : Prop :=
  ∀ i, (table.slots i).occupied = true → (table.slots i).transient = true →
    ∃ n, (table.slots i).id = idField (devId n)

/-- The check both parsers make of an id field. -/
def fieldIsId (field : List UInt8) : Bool :=
  field.length = acIdLen - 1 && field.all fun c => (hexNibble c).isSome

theorem DevCodes.own {table : AcCtx} (h : DevCodes table) : TransientsOwn table := by
  intro i ho ht
  obtain ⟨n, hn⟩ := h i ho ht
  rw [hn]
  exact devId_own n

theorem syncApply_transients {table : AcCtx} (h : TransientsOwn table) (ctx : SyncCtx)
    (set : SyncSet) (nowMs : UInt32) :
    KeepsTransients table (syncApply ctx table set nowMs).2.1 ∧
      TransientsOwn (syncApply ctx table set nowMs).2.1 := by
  have hs := syncApply_step ctx table set nowMs
  generalize syncApply ctx table set nowMs = out at hs ⊢
  cases hs with
  | badEntry | unchanged | stale => exact ⟨.refl table, h⟩
  | installed _ _ _ hacc =>
    obtain ⟨keeps, own, -⟩ := install_shows h hacc
    exact ⟨keeps, own⟩

/-- A revoke finds no transient slot under an id of the backend's. -/
theorem acRevoke_transients {table : AcCtx} {e : SyncEntry} (he : Backend e)
    (h : TransientsOwn table) :
    KeepsTransients table (acRevoke table e.id.toList).1 ∧
      TransientsOwn (acRevoke table e.id.toList).1 := by
  refine ⟨fun i _ ht => ?_, h.acRevoke _⟩
  unfold acRevoke
  split
  next => rfl
  next j hfound =>
    obtain ⟨hocc, hkey⟩ := findById_some hfound
    rw [he.take_key] at hkey
    refine setSlot_other table _ ?_
    rintro rfl
    rw [h.not_transient he hocc hkey] at ht
    cases ht

theorem tgApply_transients {table : AcCtx} {m : TgMsg} (hm : Backend m.entry)
    (h : TransientsOwn table) :
    KeepsTransients table (tgApply table m) ∧ TransientsOwn (tgApply table m) := by
  unfold tgApply
  split
  next => exact acUpsert_transients hm h
  next =>
    have hrevoked := acRevoke_transients hm h
    exact hrevoked

theorem telegram_transients {table : AcCtx} (h : TransientsOwn table) (line : List UInt8)
    (lastCounter : Nat) (mac : HexMac) :
    KeepsTransients table (tableStep table (.telegram line lastCounter mac)) ∧
      TransientsOwn (tableStep table (.telegram line lastCounter mac)) := by
  simp only [tableStep]
  split
  next hok =>
    have hline := (tgParse_ok (Prod.ext hok rfl : tgParse line lastCounter mac = (.ok, _))).1
    exact tgApply_transients hline.backend h
  next => exact ⟨.refl table, h⟩

theorem tableStep_own {table : AcCtx} (h : TransientsOwn table) (e : TableEvent) :
    TransientsOwn (tableStep table e) := by
  cases e with
  | dev n => exact TransientsOwn.upsert h fun _ => devId_own n
  | sync ctx set nowMs => exact (syncApply_transients h ctx set nowMs).2
  | telegram line lastCounter mac => exact (telegram_transients h line lastCounter mac).2
  | sessionEnd => exact h.acRevokeTransient

theorem acRevokeTransient_guests (table : AcCtx) {i : Fin acMaxSlots}
    (h : (table.slots i).transient = false) : (acRevokeTransient table).slots i = table.slots i := by
  simp [acRevokeTransient, h]

theorem acIdIsDev_eq (s : List UInt8) : acIdIsDev s = !idIsBackend s := by
  unfold acIdIsDev idIsBackend
  by_cases hempty : cstr s = []
  · simp [hempty]
  · rw [if_neg (headD_eq_zero.not.mpr hempty)]
    cases (cstr s).all isHex with
    | false => simp
    | true => simp

theorem fieldIsId_eq (s : List UInt8) : fieldIsId (cstr s) = idIsBackend s := by
  simp only [fieldIsId, idIsBackend, isHex_nibble]

theorem parseCodeLine_fieldIsId {line : List UInt8} {e : SyncEntry} (h : parseCodeLine line = some e) :
    ∃ id rest, (line.drop 5).splitOn 32 = id :: rest ∧ fieldIsId id = true := by
  unfold parseCodeLine at h
  split at h
  next id hash validFrom validUntil hsplit =>
    split_ifs at h with hlen hhex
    refine ⟨id, _, hsplit, ?_⟩
    simp only [fieldIsId, Bool.and_eq_true, decide_eq_true_eq]
    exact ⟨not_not.mp hlen, by simpa [Option.isSome_iff_ne_none] using hhex⟩
  next => cases h

theorem parseFields_fieldIsId {last : Nat} {counter op id hash validFrom validUntil : List UInt8}
    {m : TgMsg} (h : parseFields last counter op id hash validFrom validUntil = (.ok, m)) :
    fieldIsId id = true := by
  obtain ⟨⟨-, ⟨hlen, hhex, -⟩, -⟩, -⟩ := parseFields_iff.mp h
  simp [fieldIsId, isHex_nibble, hlen, hhex]

/-- The network cannot touch dev codes, and ending a dev session cannot touch guests. -/
theorem network_spares_dev_codes :
    (∀ table events ctx set nowMs, DevCodes table →
      KeepsTransients (exec tableStep table events)
        (tableStep (exec tableStep table events) (.sync ctx set nowMs))) ∧
    (∀ table events line lastCounter mac, DevCodes table →
      KeepsTransients (exec tableStep table events)
        (tableStep (exec tableStep table events) (.telegram line lastCounter mac))) ∧
    (∀ table events i, ((exec tableStep table events).slots i).transient = false →
      (tableStep (exec tableStep table events) .sessionEnd).slots i =
        (exec tableStep table events).slots i) ∧
    ∀ s, (fieldIsId (cstr s) = true ↔ acIdIsDev s = false) ∧
      (idIsBackend s = true ↔ acIdIsDev s = false) := by
  have hown {table : AcCtx} (events : List TableEvent) (h : DevCodes table) :
      TransientsOwn (exec tableStep table events) :=
    exec_invariant (I := TransientsOwn) (fun _ e h => tableStep_own h e) h.own events
  refine ⟨fun table events ctx set nowMs h => (syncApply_transients (hown events h) ctx set nowMs).1,
    fun table events line lastCounter mac h =>
      (telegram_transients (hown events h) line lastCounter mac).1,
    fun table events i h => acRevokeTransient_guests _ h, fun s => ?_⟩
  rw [fieldIsId_eq, acIdIsDev_eq]
  simp

theorem network_spares_dev_codes_empty_set :
    ((tableStep (exec tableStep (acInit 3 300) [.dev 1 (zeros _) 0 100])
      (.sync (syncInit 0 0) ⟨1, []⟩ 0)).slots 0).id = idField (ascii "dev00001") := by
  have hstart : DevCodes (acInit 3 300) := fun i ho => by cases ho
  rw [network_spares_dev_codes.1 (acInit 3 300) [.dev 1 (zeros _) 0 100] (syncInit 0 0) ⟨1, []⟩ 0
    hstart 0 (by decide +kernel) (by decide +kernel)]
  decide +kernel

end GateAccess

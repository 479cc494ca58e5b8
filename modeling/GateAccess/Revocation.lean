import GateAccess.ChipWrites
import GateAccess.Generations
import GateAccess.CourierOnce

namespace GateAccess

inductive Signed
  | set (set : SyncSet)
  | line (m : TgMsg)

def Signed.gen : Signed → Option Nat
  | .set s => some s.generation
  | .line _ => none

def Signed.counter : Signed → Option Nat
  | .set _ => none
  | .line m => some m.counter

/-- The order of signing: sets with rising generations, lines with rising counters. -/
structure SignedInOrder (log : List Signed) : Prop where
  gens : (log.filterMap Signed.gen).Pairwise (· < ·)
  counters : (log.filterMap Signed.counter).Pairwise (· < ·)

/-- Some attempt at the keypad could be granted under this id. -/
def Grantable (ctx : AcCtx) (id : List UInt8) : Prop :=
  ∃ i, (ctx.slots i).occupied = true ∧ (ctx.slots i).key = id

variable (cfg : DeviceCfg)

/-- What a step delivers and the device can verify is something the backend signed. -/
def FromBackend (log : List Signed) : DeviceEvent → Prop
  | .poll fetched _ => ∀ set, delivered cfg.sync fetched = some set → .set set ∈ log
  | .update u => ∀ st m, taken cfg.sync.mac st u = some m → .line m ∈ log
  | _ => True

/-- A step that may put a code back: a set or a line signed since, a line withheld until now, or a
boot that finds the code on the chip. -/
inductive BringsBack (older newer : List Signed) (held : Nat) (chip : Eeprom) (g : SyncEntry)
    (p : Device × DeviceEvent) : Prop
  | newSet (fetched atMs set) : p.2 = .poll fetched atMs → delivered cfg.sync fetched = some set →
      .set set ∈ newer → g ∈ set.entries → BringsBack older newer held chip g p
  | newLine (u m) : p.2 = .update u → taken cfg.sync.mac p.1.tg u = some m → m.op = .add →
      g = m.entry → .line m ∈ newer → BringsBack older newer held chip g p
  | withheldLine (u m) : p.2 = .update u → taken cfg.sync.mac p.1.tg u = some m → m.op = .add →
      g = m.entry → .line m ∈ older → held < m.counter → BringsBack older newer held chip g p
  | chip (b i) : p.2 = .reboot b → (chip i).guest = some g → BringsBack older newer held chip g p

variable {cfg}

theorem acEvaluate_grantable {ctx : AcCtx} {hash : Bytes acHashLen} {now : Int}
    {id : Bytes acIdLen} (h : (acEvaluate ctx hash now).2 = (.granted, some id)) :
    Grantable ctx (cstr id.toList) := by
  obtain ⟨_, i, hocc, _, _, _, hid⟩ := acEvaluate_granted (by rw [h])
  rw [h] at hid
  exact ⟨i, hocc, by rw [AcSlot.key, ← Option.some.inj hid]⟩

theorem Grantable.guest {ctx : AcCtx} {id : List UInt8} (h : Grantable ctx id)
    (ht : TransientsOwn ctx) (hid : idIsBackend id = true) :
    ∃ i g, (ctx.slots i).guest = some g ∧ g.key = id ∧ Backend g := by
  obtain ⟨i, hocc, hk⟩ := h
  have hb : idIsBackend (ctx.slots i).id.toList = true := by
    rw [← hid, ← hk, AcSlot.key]
    exact idIsBackend_of_key (cstr_cstr _).symm
  have htr : (ctx.slots i).transient = false := by
    by_contra hc
    have := ht i hocc (by simpa using hc)
    simp [hb] at this
  exact ⟨i, ⟨_, _, _, _⟩, guest_eq_some.mpr ⟨hocc, htr, rfl, rfl, rfl, rfl⟩, hk, hb⟩

theorem SignedInOrder.older_lt {older newer : List Signed} {set set' : SyncSet}
    (h : SignedInOrder (older ++ .set set :: newer)) (hm : .set set' ∈ older) :
    set'.generation < set.generation := by
  have hg := h.gens
  rw [List.filterMap_append] at hg
  exact (List.pairwise_append.mp hg).2.2 set'.generation (List.mem_filterMap.mpr ⟨_, hm, rfl⟩)
    set.generation (List.mem_filterMap.mpr ⟨_, List.mem_cons_self, rfl⟩)

/-- The guards and the chip, measured from the moment a set was applied. -/
structure Since (cfg : DeviceCfg) (gen held : Nat) (chip : Eeprom) (d : Device) : Prop where
  genStored : GenStored cfg d
  counterStored : CounterStored cfg d
  gen_le : gen ≤ d.nvsGen
  held_le : held ≤ d.tg.nvsCounter
  chip_old : ∀ i g, (d.eeprom i).guest = some g → Backend g → ∃ j, (chip j).guest = some g

theorem deviceStep_chip {d : Device} {e : DeviceEvent} {i : Fin acMaxSlots} {g : SyncEntry}
    (h : ((deviceStep cfg d e).eeprom i).guest = some g) :
    (d.eeprom i).guest = some g ∨ ¬Backend g := by
  cases e with
  | console cmd => exact cmdCode_chip (s := ⟨d.access, d.eeprom, d.devCodes⟩) h
  | update u =>
    simp only [deviceStep] at h
    split at h <;> exact Or.inl h
  | courier resp nowMs =>
    simp only [deviceStep] at h
    split at h <;> exact Or.inl h
  | poll | portalClosed | clockTrusted | attempt | tick | reboot => exact Or.inl h

theorem Since.step {gen held : Nat} {chip : Eeprom} {d : Device} (h : Since cfg gen held chip d)
    (e : DeviceEvent) : Since cfg gen held chip (deviceStep cfg d e) where
  genStored := genStored_step h.genStored e
  counterStored := counterStored_step h.counterStored e
  gen_le := h.gen_le.trans ((installedGen_climbs h.genStored [e]).start_le fun _ _ => id)
  held_le := h.held_le.trans ((appliedMsg_climbs h.counterStored [e]).start_le fun _ _ => le_of_lt)
  chip_old := by
    intro i g hg hb
    rcases deviceStep_chip hg with hold | hnot
    · exact h.chip_old i g hold hb
    · exact absurd hb hnot

theorem Since.guest {older newer : List Signed} {set : SyncSet} {held : Nat} {chip : Eeprom}
    {d : Device} {e : DeviceEvent} {g : SyncEntry} {i : Fin acMaxSlots}
    (h : Since cfg set.generation held chip d)
    (order : SignedInOrder (older ++ .set set :: newer))
    (sent : FromBackend cfg (older ++ .set set :: newer) e)
    (absent : ∀ a ∈ set.entries, a.key ≠ g.key) (hb : Backend g)
    (hg : ((deviceStep cfg d e).access.slots i).guest = some g) :
    (d.access.slots i).guest = some g ∨ BringsBack cfg older newer held chip g (d, e) := by
  rcases deviceStep_guest hg with ⟨_, hkept⟩ | ⟨_, hw⟩
  · exact Or.inl hkept
  · refine Or.inr ?_
    cases hw with
    | set fetched atMs set' he hkey hd hinst hmem =>
      subst he
      rcases List.mem_append.mp (sent set' hd) with hold | hnew
      · have hlt := order.older_lt hold
        have hle := hinst.1
        rw [← h.genStored hkey] at hle
        exact absurd (h.gen_le.trans hle) (by omega)
      · rcases List.mem_cons.mp hnew with heq | hnew
        · obtain rfl : set' = set := by simpa using heq
          exact absurd rfl (absent g hmem)
        · exact .newSet fetched atMs set' rfl hd hnew hmem
    | push u m he hon hm hop hentry =>
      subst he
      rcases List.mem_append.mp (sent d.tg m hm) with hold | hnew
      · obtain ⟨_, _, _, hlt⟩ := taken_line hm
        refine .withheldLine u m rfl hm hop hentry hold ?_
        have := h.held_le
        rw [h.counterStored hon] at this
        omega
      · rcases List.mem_cons.mp hnew with heq | hnew
        · simp at heq
        · exact .newLine u m rfl hm hop hentry hnew
    | console cmd _ hnot => exact absurd hb hnot
    | boot b j he hchip =>
      obtain ⟨l, hl⟩ := h.chip_old j g hchip hb
      exact .chip b l he hl

theorem Since.run {gen held : Nat} {chip : Eeprom} {d : Device} (h : Since cfg gen held chip d)
    (es : List DeviceEvent) : Since cfg gen held chip (exec (deviceStep cfg) d es) :=
  exec_invariant (fun _ e hd => hd.step e) h es

/-- Over a run, a code the applied set leaves out is in the table only if a step brought it back. -/
theorem Since.brought_back {older newer : List Signed} {set : SyncSet} {held : Nat} {chip : Eeprom}
    {d : Device} {es : List DeviceEvent} {g : SyncEntry} {i : Fin acMaxSlots}
    (h : Since cfg set.generation held chip d)
    (order : SignedInOrder (older ++ .set set :: newer))
    (sent : ∀ e ∈ es, FromBackend cfg (older ++ .set set :: newer) e)
    (absent : ∀ a ∈ set.entries, a.key ≠ g.key) (hb : Backend g)
    (gone : ∀ i, (d.access.slots i).guest ≠ some g)
    (hg : ((exec (deviceStep cfg) d es).access.slots i).guest = some g) :
    ∃ p ∈ trace (deviceStep cfg) d es, BringsBack cfg older newer held chip g p := by
  induction es using List.reverseRecOn generalizing i with
  | nil => exact absurd hg (gone i)
  | append_singleton es e ih =>
    rw [exec_append] at hg
    have hlast : (exec (deviceStep cfg) d es, e) ∈ trace (deviceStep cfg) d (es ++ [e]) :=
      trace_mem_split
    rcases (h.run es).guest order (sent e (by simp)) absent hb hg with hkept | hback
    · obtain ⟨p, hp, hback⟩ := ih (fun f hf => sent f (List.mem_append_left _ hf)) hkept
      exact ⟨p, mem_trace_append hp _, hback⟩
    · exact ⟨_, hlast, hback⟩

/-- A device that has just applied a set holds no code the set leaves out, and its guards stand
there. -/
theorem InstalledBy.since {d : Device} {e : DeviceEvent} {set : SyncSet}
    (h : InstalledBy cfg (d, e) set) (hs : GenStored cfg d) (hc : CounterStored cfg d) :
    Since cfg set.generation (deviceStep cfg d e).tg.nvsCounter (deviceStep cfg d e).eeprom
      (deviceStep cfg d e) ∧
    ∀ i g, ((deviceStep cfg d e).access.slots i).guest = some g → g ∈ set.entries := by
  obtain ⟨hkey, fetched, atMs, he, hset, hres⟩ := h
  dsimp only at he hres
  subst he
  have hs' := genStored_step hs (.poll fetched atMs)
  have hc' := counterStored_step hc (.poll fetched atMs)
  have hstep := doSync_step cfg.sync d.sync d.access d.nvsGen fetched atMs
  simp only [deviceStep] at hs' hc' ⊢
  generalize doSync cfg.sync d.sync d.access d.nvsGen fetched atMs = out at hstep hs' hc' ⊢
  cases hstep with
  | noKey hoff => simp [hkey] at hoff
  | failed _ hnone => simp [hset] at hnone
  | unchanged set' _ hset' hr =>
    obtain rfl := Option.some.inj (hset.symm.trans hset')
    simp [hr] at hres
  | stale set' _ hset' hr =>
    obtain rfl := Option.some.inj (hset.symm.trans hset')
    simp [hr] at hres
  | installed set' _ hset' _ _ hacc =>
    obtain rfl := Option.some.inj (hset.symm.trans hset')
    refine ⟨⟨hs', hc', le_rfl, le_rfl, fun i g hg _ => ⟨i, hg⟩⟩, fun i g hg => ?_⟩
    exact (installed_guest (fun a ha => Backend.of_accepted (hacc a ha)) hg).2

def pushThenEmpty : List Signed := [.line pushedMsg, .set ⟨5, []⟩]

theorem pushThenEmpty_order : SignedInOrder pushThenEmpty where
  gens := by decide
  counters := by decide

def emptied : Device := deviceRun plainCfg blankStored coldBoot ([] ++ [.poll (some emptyBody) 0])

theorem emptyBody_installed : InstalledBy plainCfg
    (powerUp plainCfg blankStored coldBoot, .poll (some emptyBody) 0) ⟨5, []⟩ :=
  ⟨rfl, some emptyBody, 0, rfl, by decide +kernel, Or.inl (by decide +kernel)⟩

theorem pushedAdd_sent : FromBackend plainCfg pushThenEmpty (.update pushedAdd) := by
  intro st m h
  rw [taken_pushedAdd h]
  exact List.mem_cons_self

end GateAccess

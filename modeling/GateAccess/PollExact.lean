import GateAccess.Generations

namespace GateAccess

variable {cfg : DeviceCfg}

def HoldsExactly (ctx : AcCtx) (set : SyncSet) : Prop :=
  GuestsUnique ctx ∧
    ∀ g, (∃ i, (ctx.slots i).guest = some g) ↔ lastOf SyncEntry.key set.entries g.key = some g

theorem Shows.holdsExactly {ctx : AcCtx} {set : SyncSet}
    (h : Shows ctx (Store.load SyncEntry.key .empty set.entries)) : HoldsExactly ctx set := by
  refine ⟨h.unique, fun g => ?_⟩
  rw [← Store.load_empty, h.holds]
  exact ⟨fun ⟨i, hg⟩ => ⟨i, hg, rfl⟩, fun ⟨i, hg, _⟩ => ⟨i, hg⟩⟩

def KeepsGuests (cfg : DeviceCfg) (p : Device × DeviceEvent) : Prop :=
  ∀ i, ((deviceStep cfg p.1 p.2).access.slots i).guest = (p.1.access.slots i).guest

theorem HoldsExactly.of_guests {ctx ctx' : AcCtx} {set : SyncSet} (h : HoldsExactly ctx set)
    (hs : ∀ i, (ctx'.slots i).guest = (ctx.slots i).guest) : HoldsExactly ctx' set := by
  obtain ⟨hu, hg⟩ := h
  refine ⟨fun i j g g' hi hj => hu i j g g' ((hs i).symm.trans hi) ((hs j).symm.trans hj), ?_⟩
  simpa only [hs] using hg

/-- Behind a table the device calls current lies the poll that installed it, in the same boot. -/
theorem everSynced_installed (s : Stored) (b : BootInputs) (es : List DeviceEvent)
    (h : (deviceRun cfg s b es).sync.everSynced = true) :
    ∃ before e after set, es = before ++ e :: after ∧
      InstalledBy cfg (deviceRun cfg s b before, e) set ∧
      set.generation = (deviceRun cfg s b es).sync.generation ∧
      ∀ f ∈ after, f.isReboot = false := by
  induction es using List.reverseRecOn with
  | nil =>
    simp only [deviceRun, exec_nil, powerUp] at h
    split at h <;> simp [syncInit] at h
  | append_singleton es e ih =>
    have hs := deviceStep_gen cfg (deviceRun cfg s b es) e
    rw [deviceRun_concat] at h ⊢
    generalize deviceStep cfg (deviceRun cfg s b es) e = d' at hs h ⊢
    generalize installedGen cfg (deviceRun cfg s b es) e = gens at hs
    cases hs with
    | kept hr _ hg hever =>
      obtain ⟨before, f, after, set, hsplit, hinst, hgen, hafter⟩ := ih (hever.symm.trans h)
      refine ⟨before, f, after ++ [e], set, by rw [hsplit]; simp, hinst, hgen.trans hg.symm, ?_⟩
      intro q hq
      rcases List.mem_append.mp hq with hq | hq
      · exact hafter q hq
      · rw [List.mem_singleton.mp hq]
        exact hr
    | reboot _ _ _ hever => simp [hever] at h
    | installed set _ hinst _ _ hg _ =>
      exact ⟨es, e, [], set, rfl, hinst, hg.symm, by simp⟩

theorem keepsGuests_run {d : Device} {es : List DeviceEvent}
    (h : ∀ p ∈ trace (deviceStep cfg) d es, KeepsGuests cfg p) (i : Fin acMaxSlots) :
    ((exec (deviceStep cfg) d es).access.slots i).guest = (d.access.slots i).guest :=
  exec_induction (I := fun d' : Device => (d'.access.slots i).guest = (d.access.slots i).guest)
    (fun p hp hkept => (h p hp i).trans hkept) rfl

/-- A poll that applies its set makes the stored codes the set's, whatever came before. A poll
that calls it unchanged touches nothing: the same set was installed earlier in this boot, and the
stored codes are still the set's if it fitted then and nothing has changed them since. -/
theorem applied_set_exact (s : Stored) (b : BootInputs) (es : List DeviceEvent)
    (fetched : Option (List UInt8)) (atMs : UInt32) (set : SyncSet)
    (hset : delivered cfg.sync fetched = some set)
    (oneSet : ∀ fetched' atMs' set', .poll fetched' atMs' ∈ es →
      delivered cfg.sync fetched' = some set' → set'.generation = set.generation → set' = set)
    (d : Device) (hd : d = deviceRun cfg s b es) :
    ((syncApply d.sync d.access set atMs).2.2 = .applied →
      HoldsExactly (syncApply d.sync d.access set atMs).2.1 set) ∧
    ((syncApply d.sync d.access set atMs).2.2 = .unchanged →
      (syncApply d.sync d.access set atMs).2.1 = d.access ∧
      ∃ before fetched' atMs' after, es = before ++ .poll fetched' atMs' :: after ∧
        delivered cfg.sync fetched' = some set ∧ (∀ f ∈ after, f.isReboot = false) ∧
        InstalledBy cfg (deviceRun cfg s b before, .poll fetched' atMs') set ∧
        ((syncApply (deviceRun cfg s b before).sync (deviceRun cfg s b before).access set
            atMs').2.2 = .applied →
          (∀ p ∈ trace (deviceStep cfg) (deviceRun cfg s b (before ++ [.poll fetched' atMs'])) after,
            KeepsGuests cfg p) →
          HoldsExactly d.access set)) := by
  have installed {before : List DeviceEvent} {atMs : UInt32}
      (ha : (syncApply (deviceRun cfg s b before).sync (deviceRun cfg s b before).access set
        atMs).2.2 = .applied) :
      HoldsExactly (syncApply (deviceRun cfg s b before).sync (deviceRun cfg s b before).access set
        atMs).2.1 set := by
    obtain ⟨_, _, fitted, _, hall, hshow⟩ :=
      syncApply_shows (transientsOwn_run s b before) (Or.inl ha)
    rw [hall ha] at hshow
    exact hshow.holdsExactly
  subst hd
  refine ⟨installed, fun hun => ?_⟩
  have hs := syncApply_step (deviceRun cfg s b es).sync (deviceRun cfg s b es).access set atMs
  generalize syncApply (deviceRun cfg s b es).sync (deviceRun cfg s b es).access set atMs = out
    at hs hun ⊢
  cases hs with
  | badEntry | stale => simp at hun
  | installed => split at hun <;> simp at hun
  | unchanged hgen hever =>
    obtain ⟨before, e, after, set', hsplit, hinst, hgen', hafter⟩ := everSynced_installed s b es hever
    obtain ⟨hkey, fetched', atMs', he, hset', _⟩ := id hinst
    dsimp only at he
    subst he
    have hsame : set' = set :=
      oneSet fetched' atMs' set' (by simp [hsplit]) hset' (hgen'.trans hgen.symm)
    subst hsame
    refine ⟨rfl, before, fetched', atMs', after, hsplit, hset', hafter, hinst, fun ha hkeeps => ?_⟩
    have hafterPoll : (deviceRun cfg s b (before ++ [.poll fetched' atMs'])).access =
        (syncApply (deviceRun cfg s b before).sync (deviceRun cfg s b before).access set'
          atMs').2.1 := by
      rw [deviceRun_concat]
      exact (doSync_delivered hkey _ _ _ hset' atMs').2
    have hrun : deviceRun cfg s b es =
        exec (deviceStep cfg) (deviceRun cfg s b (before ++ [.poll fetched' atMs'])) after := by
      rw [deviceRun, deviceRun, ← exec_append, hsplit, List.append_assoc]
      rfl
    rw [hrun]
    exact HoldsExactly.of_guests (hafterPoll ▸ installed ha) (keepsGuests_run hkeeps)

def guestLine (id : String) : String :=
  "code " ++ id ++ " " ++ String.ofList (List.replicate 64 '0') ++ " 0 4000000000\n"

def guestEntry (id : String) : SyncEntry := ⟨idField (ascii id), zeros _, 0, 4000000000⟩

def earlierBody : List UInt8 := plainBody ("gen 4\n" ++ guestLine "0badcafe")

def guestBody : List UInt8 := plainBody ("gen 5\n" ++ guestLine "11223344" ++ guestLine "55667788")

def guestSet : SyncSet := ⟨5, [guestEntry "11223344", guestEntry "55667788"]⟩

/-- A poll that installs another set, and a code pushed on top of it. -/
def pastEvents : List DeviceEvent := [.poll (some earlierBody) 0, .update pushedAdd]

def polledEvents : List DeviceEvent :=
  pastEvents ++ [.poll (some guestBody) 1000, .clockTrusted false]

theorem applied_set_exact_guests :
    HoldsExactly (syncApply (deviceRun plainCfg blankStored coldBoot pastEvents).sync
        (deviceRun plainCfg blankStored coldBoot pastEvents).access guestSet 1000).2.1 guestSet ∧
      (syncApply (deviceRun plainCfg blankStored coldBoot polledEvents).sync
        (deviceRun plainCfg blankStored coldBoot polledEvents).access guestSet 2000).2.1 =
          (deviceRun plainCfg blankStored coldBoot polledEvents).access ∧
      HoldsExactly (deviceRun plainCfg blankStored coldBoot polledEvents).access guestSet := by
  have hguests : delivered plainCfg.sync (some guestBody) = some guestSet := by decide +kernel
  have hearlier : delivered plainCfg.sync (some earlierBody) = some ⟨4, [guestEntry "0badcafe"]⟩ := by
    decide +kernel
  have hone : ∀ fetched atMs set, .poll fetched atMs ∈ polledEvents →
      delivered plainCfg.sync fetched = some set → set.generation = guestSet.generation →
      set = guestSet := by
    intro fetched atMs set hpoll hset hgen
    simp only [polledEvents, pastEvents, List.cons_append, List.nil_append, List.mem_cons,
      DeviceEvent.poll.injEq, List.not_mem_nil, reduceCtorEq, or_false, false_or] at hpoll
    rcases hpoll with ⟨rfl, -⟩ | ⟨rfl, -⟩
    · obtain rfl := Option.some.inj (hearlier.symm.trans hset)
      cases hgen
    · exact (Option.some.inj (hguests.symm.trans hset)).symm
  have hclock : ∀ d, KeepsGuests plainCfg (d, .clockTrusted false) := fun d i => rfl
  refine ⟨?_, ?_⟩
  · refine (@applied_set_exact plainCfg blankStored coldBoot pastEvents (some guestBody) 1000 guestSet
      hguests (fun fetched atMs set hpoll => ?_) _ rfl).1 (by decide +kernel)
    exact hone fetched atMs set (List.mem_append_left _ hpoll)
  · obtain ⟨hsame, before, fetched, atMs, after, hsplit, hset, -, -, hexact⟩ :=
      (@applied_set_exact plainCfg blankStored coldBoot polledEvents (some guestBody) 2000 guestSet
        hguests hone _ rfl).2 (by decide +kernel)
    refine ⟨hsame, ?_⟩
    simp only [polledEvents, pastEvents, List.cons_append, List.nil_append] at hsplit
    rcases before with _ | ⟨_, _ | ⟨_, _ | ⟨_, _ | ⟨_, before⟩⟩⟩⟩
    · obtain ⟨⟨rfl, -⟩, -⟩ := by simpa using hsplit
      have hgen := congrArg SyncSet.generation (Option.some.inj (hearlier.symm.trans hset))
      exact absurd hgen (by decide)
    · simp at hsplit
    · obtain ⟨rfl, rfl, ⟨rfl, rfl⟩, rfl⟩ := by simpa using hsplit
      refine hexact (by decide +kernel) fun p hp => ?_
      rw [trace_cons, trace_nil, List.mem_singleton] at hp
      rw [hp]
      exact hclock _
    · simp at hsplit
    · simp at hsplit

/-- After the set, a push: the same set is called unchanged over a code it does not have. -/
theorem unchanged_set_not_exact :
    ∃ es set, delivered plainCfg.sync (some emptyBody) = some set ∧
      (deviceRun plainCfg blankStored coldBoot es).sync.generation ≤ set.generation ∧
      (syncApply (deviceRun plainCfg blankStored coldBoot es).sync
        (deviceRun plainCfg blankStored coldBoot es).access set 1000).2.2 = .unchanged ∧
      ¬HoldsExactly (syncApply (deviceRun plainCfg blankStored coldBoot es).sync
        (deviceRun plainCfg blankStored coldBoot es).access set 1000).2.1 set := by
  refine ⟨[.poll (some emptyBody) 0, .update pushedAdd], ⟨5, []⟩, by decide +kernel, by decide +kernel,
    by decide +kernel, fun h => ?_⟩
  have hheld := (h.2 ⟨idField (ascii "0a1b2c3d"), zeros _, 0, 4000000000⟩).mp
    ⟨0, by decide +kernel⟩
  simp [lastOf] at hheld

end GateAccess

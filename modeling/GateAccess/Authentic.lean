import GateAccess.SlotWrites

namespace GateAccess

def DeviceEvent.isChannel : DeviceEvent → Bool
  | .poll _ _ => true
  | .update _ => true
  | _ => false

/-- The text is a line the MAC vouches for, up to its last separator. -/
def LineSigned (mac : HexMac) (text : List UInt8) : Prop :=
  ∃ front expected, mac front = some expected ∧ text = front ++ [bar] ++ expected.toList

theorem TgLine.lineSigned {mac : HexMac} {text : List UInt8} {m : TgMsg} (h : TgLine mac text m) :
    LineSigned mac text := by
  obtain ⟨_, _, _, _, _, _, expected, hmac, htext, _⟩ := h
  exact ⟨_, expected, hmac, htext⟩

variable (cfg : DeviceCfg)

inductive Authenticates : DeviceEvent → Prop
  | body (body atMs region) : signedRegion (cstr body) = some region →
      SignedBy cfg.sync.mac (cstr body) region → Authenticates (.poll (some body) atMs)
  | text (u text) : updateText u = some text → LineSigned cfg.sync.mac text →
      Authenticates (.update u)

/-- The code is on a code line of a body signed for this gate, or on a signed add line. -/
inductive SignedCode (g : SyncEntry) : DeviceEvent → Prop
  | body (body atMs region version gate rest line) : signedRegion (cstr body) = some region →
      SignedBy cfg.sync.mac (cstr body) region → linesOf region = version :: gate :: rest →
      gate = ascii "gate " ++ cfg.sync.gateId → line ∈ linesOf region → CodeLine line g →
      SignedCode g (.poll (some body) atMs)
  | text (u text m) : updateText u = some text → TgLine cfg.sync.mac text m → m.op = .add →
      g = m.entry → SignedCode g (.update u)

/-- The table and both replay guards, in RAM and in NVS, stand where they stood. -/
structure Untouched (d d' : Device) : Prop where
  access : d'.access = d.access
  generation : d'.sync.generation = d.sync.generation
  nvsGen : d'.nvsGen = d.nvsGen
  counter : d'.tg.counter = d.tg.counter
  nvsCounter : d'.tg.nvsCounter = d.tg.nvsCounter

def lastWriter (d : Device) (es : List DeviceEvent) (i : Fin acMaxSlots) :
    Option (Device × DeviceEvent) :=
  (trace (deviceStep cfg) d es).reverse.find? fun p => i ∈ writtenSlots cfg p.1 p.2

variable {cfg}

theorem lastWriter_concat (d : Device) (es : List DeviceEvent) (e : DeviceEvent)
    (i : Fin acMaxSlots) :
    lastWriter cfg d (es ++ [e]) i =
      if i ∈ writtenSlots cfg (exec (deviceStep cfg) d es) e then
        some (exec (deviceStep cfg) d es, e)
      else lastWriter cfg d es i := by
  rw [lastWriter, trace_append, List.reverse_append]
  simp only [trace_cons, trace_nil, List.reverse_singleton, List.cons_append, List.nil_append,
    List.find?_cons]
  split <;> simp_all [lastWriter]

/-- A guest's code in the table is the one its slot's last writer wrote, or it was there from the
start. -/
theorem guest_lastWriter {d : Device} {es : List DeviceEvent} {i : Fin acMaxSlots} {g : SyncEntry}
    (h : ((exec (deviceStep cfg) d es).access.slots i).guest = some g) :
    (lastWriter cfg d es i = none ∧ (d.access.slots i).guest = some g) ∨
      ∃ p, lastWriter cfg d es i = some p ∧ GuestWrite cfg p.1 p.2 g := by
  induction es using List.reverseRecOn with
  | nil => exact Or.inl ⟨rfl, h⟩
  | append_singleton es e ih =>
    rw [exec_append] at h
    rw [lastWriter_concat]
    rcases deviceStep_guest h with ⟨hnot, hkept⟩ | ⟨hin, hwrote⟩
    · rw [if_neg hnot]
      exact ih hkept
    · rw [if_pos hin]
      exact Or.inr ⟨_, rfl, hwrote⟩

theorem GuestWrite.signedCode {d : Device} {e : DeviceEvent} {g : SyncEntry}
    (h : GuestWrite cfg d e g) (he : e.isChannel = true) : SignedCode cfg g e := by
  cases h with
  | set fetched atMs set hpoll _ hd _ hmem =>
    subst hpoll
    obtain ⟨body, rfl, hparse⟩ := delivered_some hd
    obtain ⟨region, hregion, hsigned, hholds⟩ := syncParse_ok hparse
    obtain ⟨version, gate, rest, hlines, hgate⟩ := hholds.addressed
    obtain ⟨line, hline, hcode⟩ := hholds.entries g hmem
    exact .body body atMs region version gate rest line hregion hsigned hlines hgate hline hcode
  | push u m hu _ hm hop hentry =>
    subst hu
    obtain ⟨text, htext, hline, _⟩ := taken_line hm
    exact .text u text m htext hline hop hentry
  | console cmd hc => simp [hc, DeviceEvent.isChannel] at he
  | boot b i hb => simp [hb, DeviceEvent.isChannel] at he

theorem delivered_authenticates {fetched : Option (List UInt8)} {set : SyncSet}
    (h : delivered cfg.sync fetched = some set) (atMs : UInt32) :
    Authenticates cfg (.poll fetched atMs) := by
  obtain ⟨body, rfl, hparse⟩ := delivered_some h
  obtain ⟨region, hregion, hsigned, _⟩ := syncParse_ok hparse
  exact .body body atMs region hregion hsigned

theorem taken_authenticates {st : TgState} {u : TgUpdate} {m : TgMsg}
    (h : taken cfg.sync.mac st u = some m) : Authenticates cfg (.update u) := by
  obtain ⟨text, htext, hline, _⟩ := taken_line h
  exact .text u text htext hline.lineSigned

theorem deviceStep_refused {e : DeviceEvent} (d : Device) (he : e.isChannel = true)
    (h : ¬Authenticates cfg e) :
    Untouched d (deviceStep cfg d e) := by
  cases e with
  | poll fetched atMs =>
    have hs := doSync_step cfg.sync d.sync d.access d.nvsGen fetched atMs
    simp only [deviceStep]
    generalize doSync cfg.sync d.sync d.access d.nvsGen fetched atMs = out at hs ⊢
    cases hs with
    | noKey => exact ⟨rfl, rfl, rfl, rfl, rfl⟩
    | failed =>
      rw [syncFailed_eq]
      exact ⟨rfl, rfl, rfl, rfl, rfl⟩
    | unchanged set _ hd => exact absurd (delivered_authenticates hd atMs) h
    | stale set _ hd => exact absurd (delivered_authenticates hd atMs) h
    | installed set _ hd => exact absurd (delivered_authenticates hd atMs) h
  | update u =>
    simp only [deviceStep]
    split
    next =>
      rcases handleUpdate_step cfg.sync.mac d.tg d.access u with ⟨_, hsame, hc, hn⟩ | ⟨m, hm, _⟩
      · exact ⟨hsame, rfl, rfl, hc, hn⟩
      · exact absurd (taken_authenticates hm) h
    next => exact ⟨rfl, rfl, rfl, rfl, rfl⟩
  | courier | console | portalClosed | clockTrusted | attempt | tick | reboot =>
    simp [DeviceEvent.isChannel] at he

/-- Only authenticated codes reach the table: over any run, whatever is fetched or posted and
whatever the MAC, a code last written by a channel is on a line that channel had verified, and what
does not authenticate leaves the table, the generation and the replay counter alone. -/
theorem only_authenticated_codes (s : Stored) (b : BootInputs) (es : List DeviceEvent) :
    (∀ i g p, ((deviceRun cfg s b es).access.slots i).guest = some g →
      lastWriter cfg (powerUp cfg s b) es i = some p → p.2.isChannel = true →
      SignedCode cfg g p.2) ∧
    (∀ e, e.isChannel = true → ¬Authenticates cfg e →
      Untouched (deviceRun cfg s b es) (deviceRun cfg s b (es ++ [e]))) := by
  refine ⟨fun i g p hg hp hch => ?_, fun e he h => ?_⟩
  · rcases guest_lastWriter hg with ⟨hnone, _⟩ | ⟨q, hq, hwrote⟩
    · simp [hp] at hnone
    · obtain rfl := Option.some.inj (hp.symm.trans hq)
      exact hwrote.signedCode hch
  · rw [deviceRun_concat]
    exact deviceStep_refused _ he h

end GateAccess

import GateAccess.TgProto
import GateAccess.GuestTable
import GateAccess.TgPoll

namespace GateAccess

/-- A `message` or `channel_post` object, with its text when that is a string. -/
structure TgPost where
  text : Option (List UInt8)

/-- One element of `result`, with its `update_id` when that is a number. -/
structure TgUpdate where
  updateId : Option Nat
  message : Option TgPost
  channelPost : Option TgPost

/-- The courier's two numbers, in RAM and as NVS keeps them. -/
structure TgState where
  poll : TgPollCtx
  counter : Nat
  nvsCounter : Nat
  nvsOffset : Nat
  deriving DecidableEq

def tgClientInit (nvsCounter nvsOffset : Nat) (nowMs : UInt32) : TgState where
  poll := tgPollInit nvsOffset nowMs
  counter := nvsCounter
  nvsCounter := nvsCounter
  nvsOffset := nvsOffset

/-- `apply`: the table after an authenticated message. -/
def tgApply (table : AcCtx) (m : TgMsg) : AcCtx :=
  match m.op with
  | .add => (acUpsert table m.id.toList m.hash m.validFrom m.validUntil).1
  | .revoke => (acRevoke table m.id.toList).1

def updateText (u : TgUpdate) : Option (List UInt8) :=
  match u.message.or u.channelPost with
  | none => none
  | some post =>
    match post.text with
    | none => none
    | some text => if (cstr text).length ≥ tgLineMax then none else some (cstr text)

def taken (mac : HexMac) (st : TgState) (u : TgUpdate) : Option TgMsg :=
  if u.updateId.isNone then none
  else
    match updateText u with
    | none => none
    | some text =>
      let parsed := tgParse text st.counter mac
      if parsed.1 = .ok then some parsed.2 else none

/-- One pass of the loop in `handle_body`. -/
def handleUpdate (mac : HexMac) (st : TgState) (table : AcCtx) (u : TgUpdate) : TgState × AcCtx :=
  match u.updateId with
  | none => (st, table)
  | some id =>
    let st' := { st with poll := (tgPollConsume st.poll id).1 }
    match taken mac st u with
    | none => (st', table)
    | some m => ({ st' with counter := m.counter, nvsCounter := m.counter }, tgApply table m)

def handleBody (mac : HexMac) (st : TgState) (table : AcCtx) (us : List TgUpdate) :
    TgState × AcCtx :=
  us.foldl (fun s u => handleUpdate mac s.1 s.2 u) (st, table)

/-- How a request to Telegram came out: a 401 or 404, anything else that failed or could not be
read, or a list of updates. -/
inductive TgResponse
  | badToken
  | failed
  | updates (us : List TgUpdate)

/-- What `poll_once` does with the poll once the updates are handled. -/
def courierTail (st : TgState) (resp : TgResponse) (nowMs : UInt32) : TgState :=
  match resp with
  | .badToken => { st with poll := tgPollFatal st.poll }
  | .failed => { st with poll := tgPollFailed st.poll nowMs }
  | .updates _ =>
    let poll := tgPollOk st.poll nowMs
    if poll.offsetDirty then { st with nvsOffset := poll.offset, poll := tgPollPersisted poll }
    else { st with poll := poll }

def pollOnce (mac : HexMac) (st : TgState) (table : AcCtx) (resp : TgResponse) (nowMs : UInt32) :
    TgState × AcCtx :=
  match resp with
  | .updates us =>
    let handled := handleBody mac st table us
    (courierTail handled.1 resp nowMs, handled.2)
  | _ => (courierTail st resp nowMs, table)

theorem taken_parse {mac : HexMac} {st : TgState} {u : TgUpdate} {m : TgMsg}
    (h : taken mac st u = some m) :
    ∃ text, updateText u = some text ∧ tgParse text st.counter mac = (.ok, m) := by
  unfold taken at h
  split at h
  next => simp at h
  next =>
    split at h
    next => simp at h
    next text htext =>
      dsimp only at h
      split at h
      next hok => exact ⟨text, htext, Prod.ext hok (Option.some.inj h)⟩
      next => simp at h

theorem updateText_cstr {u : TgUpdate} {text : List UInt8} (h : updateText u = some text) :
    cstr text = text := by
  unfold updateText at h
  split at h
  next => simp at h
  next =>
    split at h
    next => simp at h
    next =>
      split at h
      next => simp at h
      next => rw [← Option.some.inj h, cstr_cstr]

/-- Nothing is taken but a line that verified, above the counter held. -/
theorem taken_line {mac : HexMac} {st : TgState} {u : TgUpdate} {m : TgMsg}
    (h : taken mac st u = some m) :
    ∃ text, updateText u = some text ∧ TgLine mac text m ∧ st.counter < m.counter := by
  obtain ⟨text, htext, hparse⟩ := taken_parse h
  obtain ⟨hline, hlt⟩ := tgParse_ok hparse
  rw [updateText_cstr htext] at hline
  exact ⟨text, htext, hline, hlt⟩

def TgMsg.entry (m : TgMsg) : SyncEntry := ⟨m.id, m.hash, m.validFrom, m.validUntil⟩

theorem TgLine.backend {mac : HexMac} {text : List UInt8} {m : TgMsg} (h : TgLine mac text m) :
    Backend m.entry := by
  obtain ⟨_, _, _, _, _, _, _, _, _, hsay⟩ := h
  exact hsay.id.idIsBackend

/-- What one update does: nothing but acknowledge it, or apply one message and adopt its counter. -/
theorem handleUpdate_step (mac : HexMac) (st : TgState) (table : AcCtx) (u : TgUpdate) :
    (taken mac st u = none ∧ (handleUpdate mac st table u).2 = table ∧
      (handleUpdate mac st table u).1.counter = st.counter ∧
      (handleUpdate mac st table u).1.nvsCounter = st.nvsCounter) ∨
    ∃ m, taken mac st u = some m ∧ (handleUpdate mac st table u).2 = tgApply table m ∧
      (handleUpdate mac st table u).1.counter = m.counter ∧
      (handleUpdate mac st table u).1.nvsCounter = m.counter := by
  unfold handleUpdate
  cases hid : u.updateId with
  | none => exact Or.inl ⟨by simp [taken, hid], rfl, rfl, rfl⟩
  | some id =>
    cases ht : taken mac st u with
    | none => exact Or.inl ⟨rfl, rfl, rfl, rfl⟩
    | some m => exact Or.inr ⟨m, rfl, rfl, rfl, rfl⟩

theorem courierTail_counter (st : TgState) (resp : TgResponse) (nowMs : UInt32) :
    (courierTail st resp nowMs).counter = st.counter ∧
      (courierTail st resp nowMs).nvsCounter = st.nvsCounter := by
  unfold courierTail
  cases resp with
  | badToken => exact ⟨rfl, rfl⟩
  | failed => exact ⟨rfl, rfl⟩
  | updates =>
    dsimp only
    split_ifs <;> exact ⟨rfl, rfl⟩

end GateAccess

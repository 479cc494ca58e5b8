import GateAccess.TgClient
import GateAccess.Traces

namespace GateAccess

variable (mac : HexMac)

/-- The text an acknowledged update carries, whatever its length. -/
def postText (u : TgUpdate) : Option (List UInt8) :=
  match u.updateId with
  | none => none
  | some _ => (u.message.or u.channelPost).bind TgPost.text

/-- The courier without its pre-filters: `tg_parse` with the current counter, and what it accepts
applied. -/
def courierStep (s : AcCtx × Nat) (text : List UInt8) : AcCtx × Nat :=
  let parsed := tgParse text s.2 mac
  if parsed.1 = .ok then (tgApply s.1 parsed.2, parsed.2.counter) else s

def couriered (table : AcCtx) (counter : Nat) (us : List TgUpdate) : AcCtx × Nat :=
  exec (courierStep mac) (table, counter) (us.filterMap postText)

def updateIds (us : List TgUpdate) : List Nat := us.filterMap TgUpdate.updateId

/-- The table and counter are what `tg_parse` alone would make them, the offset is the highest id,
and no text is skipped that `tg_parse` would accept. -/
structure LosesNothing (st : TgState) (table : AcCtx) (us : List TgUpdate) : Prop where
  sameTable : (handleBody mac st table us).2 = (couriered mac table st.counter us).1
  sameCounter : (handleBody mac st table us).1.counter = (couriered mac table st.counter us).2
  offset : (handleBody mac st table us).1.poll.offset =
    (updateIds us).foldl max st.poll.offset
  skipped : ∀ before u after text, us = before ++ u :: after → postText u = some text →
    updateText u = none →
    (tgParse text (handleBody mac st table before).1.counter mac).1 ≠ .ok

/-- A text at the boundary of the two limits that `tg_parse` accepts. -/
def Missed (counter : Nat) (u : TgUpdate) : Prop :=
  ∃ text, postText u = some text ∧ (cstr text).length = tgLineMax ∧ (tgParse text counter mac).1 = .ok

/-- What the handler and the bare parser agree on. -/
def Agree (st : TgState) (table : AcCtx) (us : List TgUpdate) : Prop :=
  (handleBody mac st table us).2 = (couriered mac table st.counter us).1 ∧
    (handleBody mac st table us).1.counter = (couriered mac table st.counter us).2

variable {mac}

theorem handleBody_concat (st : TgState) (table : AcCtx) (us : List TgUpdate) (u : TgUpdate) :
    handleBody mac st table (us ++ [u]) =
      handleUpdate mac (handleBody mac st table us).1 (handleBody mac st table us).2 u := by
  simp [handleBody]

theorem couriered_concat (table : AcCtx) (counter : Nat) (us : List TgUpdate) (u : TgUpdate) :
    couriered mac table counter (us ++ [u]) = match postText u with
      | none => couriered mac table counter us
      | some text => courierStep mac (couriered mac table counter us) text := by
  unfold couriered
  rw [List.filterMap_append, exec_append]
  cases h : postText u with
  | none => simp [h]
  | some text => simp [h]

theorem tgParse_cstr (line : List UInt8) (last : Nat) :
    tgParse (cstr line) last mac = tgParse line last mac := by
  simp only [tgParse, cstr_cstr]

theorem tgParse_long {line : List UInt8} (h : tgLineMax < (cstr line).length) (last : Nat) :
    (tgParse line last mac).1 ≠ .ok := by
  unfold tgParse
  dsimp only
  rw [if_pos (Or.inr h)]
  simp

theorem updateText_of_post {u : TgUpdate} {text : List UInt8} (h : postText u = some text) :
    updateText u = if (cstr text).length ≥ tgLineMax then none else some (cstr text) := by
  unfold postText at h
  unfold updateText
  cases hid : u.updateId with
  | none => simp [hid] at h
  | some id =>
    cases hp : u.message.or u.channelPost with
    | none => simp [hid, hp] at h
    | some post =>
      have ht : post.text = some text := by simpa [hid, hp] using h
      simp [ht]

theorem updateText_of_no_post {u : TgUpdate} (hid : u.updateId.isSome) (h : postText u = none) :
    updateText u = none := by
  obtain ⟨id, hid⟩ := Option.isSome_iff_exists.mp hid
  unfold postText at h
  unfold updateText
  cases hp : u.message.or u.channelPost with
  | none => rfl
  | some post =>
    have ht : post.text = none := by simpa [hid, hp] using h
    simp [ht]

theorem taken_of_no_post {st : TgState} {u : TgUpdate} (h : postText u = none) :
    taken mac st u = none := by
  unfold taken
  by_cases hid : u.updateId.isSome
  · simp [updateText_of_no_post hid h]
  · rw [if_pos (by simpa using hid)]

theorem taken_of_post {st : TgState} {u : TgUpdate} {text : List UInt8}
    (h : postText u = some text) (hmiss : ¬Missed mac st.counter u) :
    taken mac st u =
      if (tgParse text st.counter mac).1 = .ok then some (tgParse text st.counter mac).2 else none := by
  have hid : u.updateId.isNone = false := by
    cases hid : u.updateId with
    | none => simp [postText, hid] at h
    | some => rfl
  unfold taken
  rw [updateText_of_post h]
  by_cases hlen : (cstr text).length ≥ tgLineMax
  · have hno : (tgParse text st.counter mac).1 ≠ .ok := by
      rcases Nat.lt_or_eq_of_le hlen with hlt | heq
      · exact tgParse_long hlt _
      · exact fun hok => hmiss ⟨text, h, heq.symm, hok⟩
    simp [hid, hlen, hno]
  · simp only [hid, hlen, Bool.false_eq_true, if_false, tgParse_cstr]

/-- One update keeps the two in step unless it carries a missed text. -/
theorem Agree.step {st : TgState} {table : AcCtx} {us : List TgUpdate} {u : TgUpdate}
    (h : Agree mac st table us) (hmiss : ¬Missed mac (couriered mac table st.counter us).2 u) :
    Agree mac st table (us ++ [u]) := by
  obtain ⟨htable, hcounter⟩ := h
  unfold Agree
  rw [handleBody_concat, couriered_concat]
  have hs := handleUpdate_step mac (handleBody mac st table us).1 (handleBody mac st table us).2 u
  cases hp : postText u with
  | none =>
    rcases hs with ⟨_, hsame, hkept, _⟩ | ⟨m, htaken, _⟩
    · exact ⟨hsame.trans htable, hkept.trans hcounter⟩
    · simp [taken_of_no_post hp] at htaken
  | some text =>
    rw [← hcounter] at hmiss
    have ht := taken_of_post hp hmiss
    rw [hcounter] at ht
    dsimp only [courierStep]
    by_cases hok : (tgParse text (couriered mac table st.counter us).2 mac).1 = .ok
    · rw [if_pos hok] at ht ⊢
      rcases hs with ⟨hnone, _⟩ | ⟨m, htaken, happ, hadopt, _⟩
      · simp [hnone] at ht
      · obtain rfl := Option.some.inj (htaken.symm.trans ht)
        exact ⟨by rw [happ, htable], hadopt⟩
    · rw [if_neg hok] at ht ⊢
      rcases hs with ⟨_, hsame, hkept, _⟩ | ⟨m, htaken, _⟩
      · exact ⟨hsame.trans htable, hkept.trans hcounter⟩
      · simp [htaken] at ht

theorem agree_run {st : TgState} {table : AcCtx} {us : List TgUpdate}
    (h : ∀ before u after, us = before ++ u :: after → Agree mac st table before →
      ¬Missed mac (couriered mac table st.counter before).2 u) : Agree mac st table us := by
  induction us using List.reverseRecOn with
  | nil => exact ⟨rfl, rfl⟩
  | append_singleton us u ih =>
    have hus : Agree mac st table us := ih fun before v after hsplit =>
      h before v (after ++ [u]) (by rw [hsplit]; simp)
    exact hus.step (h us u [] rfl hus)

theorem handleUpdate_offset (st : TgState) (table : AcCtx) (u : TgUpdate) :
    (handleUpdate mac st table u).1.poll.offset = match u.updateId with
      | none => st.poll.offset
      | some id => max st.poll.offset id := by
  unfold handleUpdate
  cases u.updateId with
  | none => rfl
  | some id =>
    dsimp only
    split <;> exact tgPollConsume_offset st.poll id

theorem handleBody_offset (st : TgState) (table : AcCtx) (us : List TgUpdate) :
    (handleBody mac st table us).1.poll.offset = (updateIds us).foldl max st.poll.offset := by
  induction us using List.reverseRecOn with
  | nil => rfl
  | append_singleton us u ih =>
    rw [handleBody_concat, handleUpdate_offset, ih, updateIds, updateIds, List.filterMap_append,
      List.foldl_append]
    cases hid : u.updateId <;> simp [hid]

/-- The handler loses a line exactly when its own limit, one byte short of the parser's, drops it. -/
theorem courier_loses_nothing_iff (mac : HexMac) (st : TgState) (table : AcCtx) (us : List TgUpdate) :
    LosesNothing mac st table us ↔
      ∀ before u after, us = before ++ u :: after →
        ¬Missed mac (couriered mac table st.counter before).2 u := by
  constructor
  · rintro ⟨_, _, _, hskip⟩
    have clear : ∀ before u after, us = before ++ u :: after → Agree mac st table before →
        ¬Missed mac (couriered mac table st.counter before).2 u := by
      rintro before u after hsplit hagree ⟨text, hpost, hlen, hok⟩
      refine hskip before u after text hsplit hpost ?_ (hagree.2 ▸ hok)
      rw [updateText_of_post hpost, if_pos hlen.ge]
    intro before u after hsplit
    refine clear before u after hsplit (agree_run fun before' v after' hbefore => ?_)
    exact clear before' v (after' ++ u :: after) (by rw [hsplit, hbefore]; simp)
  · intro h
    have agree : ∀ before after, us = before ++ after → Agree mac st table before := by
      intro before after hsplit
      exact agree_run fun before' v after' hbefore _ =>
        h before' v (after' ++ after) (by rw [hsplit, hbefore]; simp)
    obtain ⟨htable, hcounter⟩ := agree us [] (by simp)
    refine ⟨htable, hcounter, handleBody_offset st table us, ?_⟩
    intro before u after text hsplit hpost hnone hok
    rw [updateText_of_post hpost] at hnone
    have hlen : tgLineMax ≤ (cstr text).length := by
      by_contra hlt
      simp [hlt] at hnone
    rcases Nat.lt_or_eq_of_le hlen with hlt | heq
    · exact tgParse_long hlt _ hok
    · rw [(agree before (u :: after) hsplit).2] at hok
      exact h before u after hsplit ⟨text, hpost, heq.symm, hok⟩

/-- A signed revoke of exactly the parser's limit, padded in a field a revoke does not use. -/
def longRevoke : TgUpdate :=
  ⟨some 1, some ⟨some (ascii "v1|1|rev|0a1b2c3d|" ++ List.replicate 169 48 ++ ascii "|-|-|" ++
    List.replicate 64 48)⟩, none⟩

theorem long_revoke_lost :
    ¬LosesNothing (fun _ => some (List.Vector.replicate _ 48)) (tgClientInit 0 0 0) (acInit 5 300)
      [longRevoke] := by
  rintro ⟨_, hcounter, _, _⟩
  have : (handleBody (fun _ => some (List.Vector.replicate _ 48)) (tgClientInit 0 0 0) (acInit 5 300)
      [longRevoke]).1.counter = 0 := by decide +kernel
  have : (couriered (fun _ => some (List.Vector.replicate _ 48)) (acInit 5 300) 0
      [longRevoke]).2 = 1 := by decide +kernel
  simp_all [tgClientInit]

end GateAccess

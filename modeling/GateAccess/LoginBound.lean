import GateAccess.HeldReopen

namespace GateAccess

/-- A wrong login that an open session counts. -/
def WrongLogin (p : ProvCtx × ProvCall) : Prop := p.2 = .login false ∧ p.1.state = .opened

def RightLogin (p : ProvCtx × ProvCall) : Prop := p.2 = .login true ∧ p.1.state = .opened

instance : DecidablePred WrongLogin := fun _ => inferInstanceAs (Decidable (_ ∧ _))

instance : DecidablePred RightLogin := fun _ => inferInstanceAs (Decidable (_ ∧ _))

def wrongLogins (ctx : ProvCtx) (calls : List ProvCall) : Nat :=
  (trace provStep ctx calls).countP fun p => WrongLogin p

/-- A close, a logout, a timeout or a fifth failure. -/
def EndsAuth (p : ProvCtx × ProvCall) : Prop :=
  p.2 = .close ∨ p.2 = .logout ∨
    (∃ t, p.2 = .tick t ∧ provSessionMs ≤ UInt32.ofNat t - p.1.openedMs) ∨ LastStraw p

/-- A correct login in the present session, and nothing since that ends it. -/
def LoggedInSince (calls : List ProvCall) : Prop :=
  ∃ before o first since, calls = before ++ o :: (first ++ .login true :: since) ∧
    (provCall (provRun before) o).2 = .openAp ∧
    NoOpening (provRun (before ++ [o])) (first ++ .login true :: since) ∧
    (provLogin (provRun (before ++ o :: first)) true).2 = true ∧
    ∀ p ∈ trace provStep (provRun (before ++ o :: (first ++ [.login true]))) since, ¬EndsAuth p

/-- What one call does to the session, its login and its failures. -/
inductive SessionStep (ctx : ProvCtx) (call : ProvCall) : ProvCtx → Prop
  | shut (ctx') : ctx.state = .closed → ctx'.state = .closed → SessionStep ctx call ctx'
  | opening (ctx') : (provCall ctx call).2 = .openAp → ctx'.state = .opened →
      ctx'.authenticated = false → ctx'.loginFailures = 0 → SessionStep ctx call ctx'
  | ended (ctx') : ctx.state = .opened → call ≠ .login true → ctx'.state = .closed →
      SessionStep ctx call ctx'
  | right (ctx') : call = .login true → ctx.state = .opened → ctx'.state = .opened →
      ctx'.loginFailures = 0 → SessionStep ctx call ctx'
  | wrong (ctx') : call = .login false → ctx.state = .opened → ctx'.state = .opened →
      ctx'.authenticated = ctx.authenticated → ctx.loginFailures.toNat ≤ 3 →
      ctx'.loginFailures.toNat = ctx.loginFailures.toNat + 1 → SessionStep ctx call ctx'
  | loggedOut (ctx') : call = .logout → ctx.state = .opened → ctx'.state = .opened →
      ctx'.authenticated = false → ctx'.loginFailures = ctx.loginFailures → SessionStep ctx call ctx'
  | kept (ctx') : (∀ ok, call ≠ .login ok) → ¬EndsAuth (ctx, call) → ctx.state = .opened →
      ctx'.state = .opened → ctx'.authenticated = ctx.authenticated →
      ctx'.loginFailures = ctx.loginFailures → SessionStep ctx call ctx'

theorem provLogin_wrong {ctx : ProvCtx} (h : ctx.state = .opened) :
    (4 ≤ ctx.loginFailures.toNat ∧ (provLogin ctx false).1.state = .closed) ∨
    (ctx.loginFailures.toNat ≤ 3 ∧ (ctx.loginFailures + 1).toNat = ctx.loginFailures.toNat + 1 ∧
      (provLogin ctx false).1 = { ctx with loginFailures := ctx.loginFailures + 1 }) := by
  by_cases hfour : 4 ≤ ctx.loginFailures.toNat
  · have hs := provLogin_step ctx false
    refine .inl ⟨hfour, ?_⟩
    generalize (provLogin ctx false).1 = next at hs ⊢
    cases hs with
    | kept _ _ _ hlast => exact absurd ⟨rfl, h, hfour⟩ hlast
    | dropped _ _ hclosed => exact hclosed
  · have hsum : (ctx.loginFailures + 1).toNat = ctx.loginFailures.toNat + 1 := by
      rw [UInt8.toNat_add]
      simp
      omega
    have hroom : ctx.loginFailures < 255 := UInt8.lt_iff_toNat_lt.mpr (by simp; omega)
    have hfew : ¬ctx.loginFailures + 1 ≥ provMaxLoginFailures := fun hge => by
      have hle := UInt8.le_iff_toNat_le.mp hge
      have hmax : provMaxLoginFailures.toNat = 5 := rfl
      omega
    refine .inr ⟨by omega, hsum, ?_⟩
    simp [provLogin, h, hroom, hfew]

theorem provStep_session (ctx : ProvCtx) (call : ProvCall) :
    SessionStep ctx call (provStep ctx call) := by
  cases hs : ctx.state with
  | closed =>
    cases hnext : (provStep ctx call).state with
    | closed => exact .shut _ hs hnext
    | opened =>
      have hstep := provCall_step ctx call
      unfold provStep at hnext ⊢
      rcases hout : provCall ctx call with ⟨next, action⟩
      rw [hout] at hstep hnext
      cases hstep with
      | kept _ hstate => rw [hstate, hs] at hnext; cases hnext
      | opened t => exact .opening _ (by rw [hout]) rfl rfl rfl
      | closed _ hopen => rw [hs] at hopen; cases hopen
      | dropped _ hlast => rw [hlast.2.1] at hs; cases hs
  | opened =>
    cases call with
    | button down t =>
      have hopen := provButton_open hs down t
      have hsame : (provStep ctx (.button down t)).authenticated = ctx.authenticated ∧
          (provStep ctx (.button down t)).loginFailures = ctx.loginFailures := by
        simp only [provStep, provCall, provButton]
        split_ifs <;> simp_all
      exact .kept _ (by simp) (by simp [EndsAuth, LastStraw]) hs hopen hsame.1 hsame.2
    | tick t =>
      simp only [provStep, provCall, provTick, hs, ne_eq, not_true, if_false]
      split
      next => exact .ended _ hs (by simp) (closeSession_closed ctx)
      next hearly =>
        refine .kept _ (by simp) ?_ hs hs rfl rfl
        simpa [EndsAuth, LastStraw] using hearly
    | login ok =>
      cases ok with
      | true =>
        simp only [provStep, provCall, provLogin, hs, ne_eq, not_true, if_false, if_true]
        exact .right _ rfl hs rfl rfl
      | false =>
        rcases provLogin_wrong hs with ⟨_, hclosed⟩ | ⟨hfew, hsum, hnext⟩
        · exact .ended _ hs (by simp) hclosed
        · simp only [provStep, provCall, hnext]
          exact .wrong _ rfl hs hs rfl hfew hsum
    | close => exact .ended _ hs (by simp) (closeSession_closed ctx)
    | logout =>
      simp only [provStep, provCall, provSessionLogout, provIsOpen, hs, decide_true, if_true]
      exact .loggedOut _ rfl hs rfl rfl rfl

/-- An open session has room for another failure. -/
def FailuresLeft (ctx : ProvCtx) : Prop := ctx.state = .opened → ctx.loginFailures.toNat ≤ 4

theorem failuresLeft_step {ctx : ProvCtx} (call : ProvCall) (h : FailuresLeft ctx) :
    FailuresLeft (provStep ctx call) := by
  have hs := provStep_session ctx call
  intro hopen
  generalize provStep ctx call = next at hs hopen ⊢
  cases hs with
  | shut _ hclosed => rw [hclosed] at hopen; cases hopen
  | opening _ _ _ hfew => simp [hfew]
  | ended _ _ hclosed => rw [hclosed] at hopen; cases hopen
  | right _ _ _ hfew => simp [hfew]
  | wrong _ _ _ _ hfew hsum => omega
  | loggedOut _ hwas _ _ hsame => rw [hsame]; exact h hwas
  | kept _ _ hwas _ _ hsame => rw [hsame]; exact h hwas

theorem failuresLeft_run (calls : List ProvCall) : FailuresLeft (provRun calls) :=
  exec_invariant (fun _ call h => failuresLeft_step call h) (fun h => by cases h) calls

theorem wrongLogins_concat (ctx : ProvCtx) (calls : List ProvCall) (call : ProvCall) :
    wrongLogins ctx (calls ++ [call]) =
      wrongLogins ctx calls + if WrongLogin (exec provStep ctx calls, call) then 1 else 0 := by
  simp [wrongLogins, trace_concat, List.countP_append, List.countP_cons]

/-- Within a session and with no correct login, the failures of the state are those counted. -/
theorem wrongLogins_bound {ctx : ProvCtx} (hleft : FailuresLeft ctx) {calls : List ProvCall}
    (hno : NoOpening ctx calls) (hright : ∀ p ∈ trace provStep ctx calls, ¬RightLogin p) :
    wrongLogins ctx calls ≤ 5 ∧ ((exec provStep ctx calls).state = .opened →
      (exec provStep ctx calls).loginFailures.toNat =
        ctx.loginFailures.toNat + wrongLogins ctx calls) := by
  induction calls using List.reverseRecOn with
  | nil => simp [wrongLogins]
  | append_singleton calls call ih =>
    obtain ⟨hno', hact⟩ := noOpening_concat.mp hno
    simp only [trace_concat, List.mem_append, List.mem_singleton, or_imp, forall_and, forall_eq]
      at hright
    obtain ⟨hcount, hfailures⟩ := ih hno' hright.1
    have hfew : FailuresLeft (exec provStep ctx calls) :=
      exec_invariant (fun _ c h => failuresLeft_step c h) hleft calls
    have hs := provStep_session (exec provStep ctx calls) call
    rw [wrongLogins_concat, exec_concat]
    have hwrong : ¬RightLogin (exec provStep ctx calls, call) := hright.2
    generalize provStep (exec provStep ctx calls) call = next at hs ⊢
    cases hs with
    | shut hwas hclosed => simp [WrongLogin, hwas, hclosed, hcount]
    | opening hopens => exact absurd hopens hact
    | ended hwas _ hclosed =>
      have hsum := hfailures hwas
      have hroom := hfew hwas
      refine ⟨?_, fun hopen => by rw [hclosed] at hopen; cases hopen⟩
      split <;> omega
    | right hcall hwas => exact absurd ⟨hcall, hwas⟩ hwrong
    | wrong hcall hwas _ _ hthree hsum =>
      have hbefore := hfailures hwas
      rw [if_pos (show WrongLogin _ from ⟨hcall, hwas⟩)]
      exact ⟨by omega, fun _ => by omega⟩
    | loggedOut hcall hwas _ _ hsame =>
      rw [if_neg (by simp [WrongLogin, hcall]), hsame]
      exact ⟨hcount, fun _ => hfailures hwas⟩
    | kept hcall _ hwas _ _ hsame =>
      rw [if_neg (fun h : WrongLogin _ => hcall false h.1), hsame]
      exact ⟨hcount, fun _ => hfailures hwas⟩

/-- Five wrong logins have closed the session. -/
theorem wrongLogins_five {ctx : ProvCtx} (hleft : FailuresLeft ctx) {calls : List ProvCall}
    (hno : NoOpening ctx calls) (hright : ∀ p ∈ trace provStep ctx calls, ¬RightLogin p)
    (hfive : wrongLogins ctx calls = 5) : (exec provStep ctx calls).state = .closed := by
  cases hend : (exec provStep ctx calls).state with
  | closed => rfl
  | opened =>
    have hsum := (wrongLogins_bound hleft hno hright).2 hend
    have hroom : FailuresLeft (exec provStep ctx calls) :=
      exec_invariant (fun _ c h => failuresLeft_step c h) hleft calls
    have hfour := hroom hend
    omega

/-- An open session began with an opening, the last so far. -/
theorem open_since {calls : List ProvCall} (h : (provRun calls).state = .opened) :
    ∃ before o first, calls = before ++ o :: first ∧ (provCall (provRun before) o).2 = .openAp ∧
      NoOpening (provRun (before ++ [o])) first := by
  induction calls using List.reverseRecOn with
  | nil => cases h
  | append_singleton calls call ih =>
    by_cases hopens : (provCall (provRun calls) call).2 = .openAp
    · exact ⟨calls, call, [], rfl, hopens, by simp [NoOpening]⟩
    · have hwas : (provRun calls).state = .opened := by
        have hone : NoOpening (provRun calls) [call] := by simpa [NoOpening] using hopens
        rw [provRun, exec_append] at h
        exact (opened_since hone h).1
      obtain ⟨before, o, first, rfl, ho, hno⟩ := ih hwas
      refine ⟨before, o, first ++ [call], by simp, ho, noOpening_concat.mpr ⟨hno, ?_⟩⟩
      rwa [← provRun_split]

theorem LoggedInSince.concat {calls : List ProvCall} {call : ProvCall} (h : LoggedInSince calls)
    (hact : (provCall (provRun calls) call).2 ≠ .openAp) (hkept : ¬EndsAuth (provRun calls, call)) :
    LoggedInSince (calls ++ [call]) := by
  obtain ⟨before, o, first, since, rfl, ho, hno, hok, hsince⟩ := h
  refine ⟨before, o, first, since ++ [call], by simp, ho, ?_, hok, ?_⟩
  · rw [← List.cons_append, ← List.append_assoc, noOpening_concat, ← provRun_split]
    exact ⟨hno, hact⟩
  · have hstate : exec provStep (provRun (before ++ o :: (first ++ [.login true]))) since =
        provRun (before ++ o :: (first ++ .login true :: since)) := by
      rw [provRun, provRun, ← exec_append]
      simp
    simp only [trace_concat, List.mem_append, List.mem_singleton, or_imp, forall_and, forall_eq, hstate]
    exact ⟨hsince, hkept⟩

/-- Who is authenticated has logged in since the session opened. -/
theorem loggedInSince {calls : List ProvCall} (hopen : (provRun calls).state = .opened)
    (hauth : (provRun calls).authenticated = true) : LoggedInSince calls := by
  induction calls using List.reverseRecOn with
  | nil => cases hopen
  | append_singleton calls call ih =>
    have hs := provStep_session (provRun calls) call
    rw [provRun, exec_concat] at hopen hauth
    generalize hnext : provStep (provRun calls) call = next at hs
    rw [hnext] at hopen hauth
    cases hs with
    | shut _ hclosed => rw [hclosed] at hopen; cases hopen
    | opening _ _ hout => rw [hout] at hauth; cases hauth
    | ended _ _ hclosed => rw [hclosed] at hopen; cases hopen
    | right hcall hwas =>
      obtain ⟨before, o, first, rfl, ho, hno⟩ := open_since hwas
      subst hcall
      refine ⟨before, o, first, [], by simp, ho, noOpening_concat.mpr ⟨hno, by simp [provCall]⟩, ?_,
        by simp⟩
      simp [provLogin, hwas]
    | wrong hcall hwas _ hsame hfew =>
      refine (ih hwas (hsame ▸ hauth)).concat (by simp [hcall, provCall]) ?_
      simp only [EndsAuth, hcall, LastStraw]
      simp
      omega
    | loggedOut _ _ _ hout => rw [hout] at hauth; cases hauth
    | kept hcall hends hwas _ hsame =>
      refine (ih hwas (hsame ▸ hauth)).concat (fun hopens => ?_) hends
      have hclosed := (provCall_opened hopens).choose_spec.2.1
      rw [hwas] at hclosed
      cases hclosed

theorem provLogin_closed {ctx : ProvCtx} (h : ctx.state = .closed) (ok : Bool) :
    (provLogin ctx ok).2 = false := by
  simp [provLogin, h]

/-- A press of the button buys five guesses, and what one session proved the next does not know. -/
theorem logins_bounded :
    (∀ before o skipped tried rest, (provCall (provRun before) o).2 = .openAp →
      NoOpening (provRun (before ++ [o])) (skipped ++ (tried ++ rest)) →
      (∀ p ∈ trace provStep (provRun (before ++ o :: skipped)) tried, ¬RightLogin p) →
      wrongLogins (provRun (before ++ o :: skipped)) tried ≤ provMaxLoginFailures.toNat ∧
      (wrongLogins (provRun (before ++ o :: skipped)) tried = provMaxLoginFailures.toNat →
        ∀ p ∈ trace provStep (provRun (before ++ o :: (skipped ++ tried))) rest,
          ∀ ok, (provLogin p.1 ok).2 = false)) ∧
    ∀ calls, provIsAuthenticated (provRun calls) = true → LoggedInSince calls := by
  constructor
  · intro before o skipped tried rest _ hno hright
    obtain ⟨-, hafter⟩ := hno.split
    rw [← provRun_split] at hafter
    obtain ⟨htried, hrest⟩ := hafter.split
    have hleft : FailuresLeft (provRun (before ++ o :: skipped)) := failuresLeft_run _
    refine ⟨(wrongLogins_bound hleft htried hright).1, fun hfive p hp ok => ?_⟩
    have hclosed := wrongLogins_five hleft htried hright hfive
    have hsplit : provRun (before ++ o :: (skipped ++ tried)) =
        exec provStep (provRun (before ++ o :: skipped)) tried := by
      rw [← List.cons_append, ← List.append_assoc, provRun, exec_append]
    obtain ⟨done, next, rfl, hstate⟩ := mem_trace hp
    rw [hsplit] at hstate
    rw [hstate]
    exact provLogin_closed ((NoOpening.split hrest).1.closed hclosed) ok
  · intro calls hauth
    simp only [provIsAuthenticated, provIsOpen, Bool.and_eq_true, decide_eq_true_eq] at hauth
    exact loggedInSince hauth.1 hauth.2

theorem logins_bounded_once :
    (∀ p ∈ trace provStep (provRun ([.button true 0] ++ .button true 5000 :: ([] ++
      List.replicate 5 (.login false)))) [.login true], ∀ ok, (provLogin p.1 ok).2 = false) ∧
    LoggedInSince [.button true 0, .button true 5000, .login true] :=
  ⟨(logins_bounded.1 [.button true 0] (.button true 5000) [] (List.replicate 5 (.login false))
      [.login true] (by decide) (by unfold NoOpening; decide) (by decide)).2 (by decide),
    logins_bounded.2 _ (by decide)⟩

end GateAccess

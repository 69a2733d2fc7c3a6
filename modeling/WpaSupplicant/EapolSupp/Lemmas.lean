import WpaSupplicant.EapolSupp.Machine

namespace WpaSupplicant.EapolSupp

open Lib.Octets Lib.Buffer Lib.StateMachine

-- The variables of the EAP machine that parsing a packet leaves alone
def sessionPart (eap : EapSm) : EapSm :=
  { eap with
    rxReq := false, rxResp := false, rxSuccess := false, rxFailure := false, reqId := 0, reqMethod := 0,
    reqVendor := 0, reqVendorMethod := 0, reqMd5 := [] }

theorem parseEapReq_sessionPart (c : Ctx) (eap : EapSm) (req : Option Octets) :
    sessionPart (parseEapReq c eap req) = sessionPart eap := by
  unfold parseEapReq
  split
  · rfl
  dsimp only
  repeat' split
  all_goals rfl

section Entry

variable {c : Ctx} {a : Answer} {t : EapState} {sm : Sm}

def eapolPart (sm : Sm) : Sm :=
  { sm with
    idleWhile := 0, eapSuccess := false, eapFail := false, eapRestart := false, eapResp := false,
    eapNoResp := false, eapReq := false, config := none, eap := {} }

theorem eapGetMethod_writes (c : Ctx) (a : Answer) (sm : Sm) :
    ∃ eap, eapGetMethod c a sm = { sm with eap := eap } ∧ eap.state = .getMethod ∧
      eap.forceDisabled = sm.eap.forceDisabled ∧ eap.numRounds = sm.eap.numRounds := by
  unfold eapGetMethod
  dsimp only
  repeat' split
  all_goals exact ⟨_, rfl, rfl, rfl, rfl⟩

theorem eapMethod_writes (a : Answer) (sm : Sm) :
    ∃ eap, eapMethod a sm = { sm with eap := eap } ∧ eap.state = .method ∧
      eap.forceDisabled = sm.eap.forceDisabled ∧ eap.numRounds = sm.eap.numRounds := by
  unfold eapMethod
  split
  · exact ⟨_, rfl, rfl, rfl, rfl⟩
  dsimp only
  split
  · exact ⟨_, rfl, rfl, rfl, rfl⟩
  · exact ⟨_, rfl, rfl, rfl, rfl⟩

theorem eapEntry_eapolPart (c : Ctx) (a : Answer) (t : EapState) (sm : Sm) :
    eapolPart (eapEntry c a t sm) = eapolPart sm := by
  cases t
  case getMethod =>
    obtain ⟨eap, heq, -⟩ := eapGetMethod_writes c a sm
    rw [eapEntry, heq]
    rfl
  case method =>
    obtain ⟨eap, heq, -⟩ := eapMethod_writes a sm
    rw [eapEntry, heq]
    rfl
  case sendResponse =>
    simp only [eapEntry]
    unfold eapSendResponse
    dsimp only
    split <;> rfl
  all_goals rfl

@[simp] theorem eapEntry_state : (eapEntry c a t sm).eap.state = t := by
  cases t
  case getMethod =>
    obtain ⟨eap, heq, hstate, -⟩ := eapGetMethod_writes c a sm
    rw [eapEntry, heq, hstate]
  case method =>
    obtain ⟨eap, heq, hstate, -⟩ := eapMethod_writes a sm
    rw [eapEntry, heq, hstate]
  case sendResponse =>
    simp only [eapEntry]
    unfold eapSendResponse
    dsimp only
    split <;> rfl
  all_goals rfl

theorem eapEntry_vars (c : Ctx) (a : Answer) (t : EapState) (sm : Sm) :
    (eapEntry c a t sm).eapReq =
        (if t ∈ [EapState.sendResponse, .discard, .success, .failure] then false else sm.eapReq) ∧
      (eapEntry c a t sm).eapRestart = (if t = .initializing then false else sm.eapRestart) ∧
      (eapEntry c a t sm).eapSuccess =
        (if t = .initializing then false else if t = .success then true else sm.eapSuccess) ∧
      (eapEntry c a t sm).eapFail =
        (if t = .initializing then false else if t = .failure then true else sm.eapFail) ∧
      (eapEntry c a t sm).eapNoResp = (if t = .initializing then false
        else if t ∈ [EapState.discard, .success, .failure] then true else sm.eapNoResp) ∧
      (eapEntry c a t sm).eapResp = (if t = .initializing then false
        else if t = .sendResponse ∧ sm.eap.eapRespData.isSome = true then true else sm.eapResp) := by
  cases t
  case getMethod =>
    obtain ⟨eap, heq, -⟩ := eapGetMethod_writes c a sm
    rw [eapEntry, heq]
    simp
  case method =>
    obtain ⟨eap, heq, -⟩ := eapMethod_writes a sm
    rw [eapEntry, heq]
    simp
  case sendResponse =>
    simp only [eapEntry]
    unfold eapSendResponse
    dsimp only
    split
    · rename_i h
      simp [h]
    · rename_i h
      simp [h]
  all_goals simp [eapEntry, eapInitialize, eapReceived, eapDiscard, eapIdentity, eapNotification, eapRetransmit,
    eapSuccessEntry, eapFailureEntry]

theorem eapEntry_eap (c : Ctx) (a : Answer) (t : EapState) (sm : Sm) :
    (eapEntry c a t sm).eap.forceDisabled = sm.eap.forceDisabled ∧
      (eapEntry c a t sm).eap.numRounds = (if t ∈ [EapState.initializing, .disabled] then 0
        else if t = .received then sm.eap.numRounds + 1 else sm.eap.numRounds) := by
  cases t
  case received =>
    have h := parseEapReq_sessionPart c sm.eap sm.eapReqData
    have hdisabled : (parseEapReq c sm.eap sm.eapReqData).forceDisabled = sm.eap.forceDisabled :=
      (congrArg EapSm.forceDisabled h :)
    have hrounds : (parseEapReq c sm.eap sm.eapReqData).numRounds = sm.eap.numRounds :=
      (congrArg EapSm.numRounds h :)
    simp [eapEntry, eapReceived, hdisabled, hrounds]
  case getMethod =>
    obtain ⟨eap, heq, -, hdisabled, hrounds⟩ := eapGetMethod_writes c a sm
    rw [eapEntry, heq]
    simp [hdisabled, hrounds]
  case method =>
    obtain ⟨eap, heq, -, hdisabled, hrounds⟩ := eapMethod_writes a sm
    rw [eapEntry, heq]
    simp [hdisabled, hrounds]
  case sendResponse =>
    simp only [eapEntry]
    unfold eapSendResponse
    dsimp only
    split <;> simp
  all_goals simp [eapEntry, eapInitialize, eapDiscard, eapIdentity, eapNotification, eapRetransmit,
    eapSuccessEntry, eapFailureEntry]

end Entry

section Loop

variable {c : Ctx} {a : Answer} {sm : Sm} {answers : ℕ → Answer}

-- How many states the EAP machine can still enter from one, with or without a request
def localRank : EapState → Bool → ℕ
  | .disabled, _ => 10
  | .initializing, _ => 9
  | .idle, eapReq => if eapReq then 8 else 1
  | .received, _ => 7
  | .getMethod, _ => 6
  | .method, _ | .identity, _ | .notification, _ | .retransmit, _ => 5
  | .sendResponse, eapReq | .discard, eapReq => if eapReq then 10 else 2
  | .success, _ | .failure, _ => 0

def eapRank (sm : Sm) : ℕ :=
  if sm.eapRestart = true ∧ sm.portEnabled = true then 11
  else if sm.portEnabled = false ∨ sm.eap.forceDisabled = true then if sm.eap.state = .disabled then 0 else 1
  else if eapMaxAuthRounds < sm.eap.numRounds then if sm.eap.state = .failure then 0 else 1
  else localRank sm.eap.state sm.eapReq

theorem eapRank_lt_eapLoopBound : eapRank sm < eapLoopBound := by
  unfold eapRank eapLoopBound
  repeat' split
  all_goals first
    | omega
    | (cases sm.eap.state <;> cases sm.eapReq <;> decide)

theorem eapStepMove_eapolPart : eapolPart (eapStepMove sm).1 = eapolPart sm := by
  unfold eapStepMove
  repeat' split
  all_goals rfl

theorem eapStep_eapolPart : eapolPart (eapStep c a sm).1 = eapolPart sm := by
  unfold eapStep
  apply Move.run_rule (I := fun s => eapolPart s = eapolPart sm)
  · exact fun _ => eapStepMove_eapolPart
  · exact fun t _ => (eapEntry_eapolPart c a t _).trans eapStepMove_eapolPart

def countRound (sm : Sm) : Sm := { sm with eap := { sm.eap with numRounds := sm.eap.numRounds + 1 } }

inductive EapTransition (c : Ctx) (a : Answer) (sm : Sm) : Sm × Bool → Prop where
  | restart (hrestart : sm.eapRestart = true) (hport : sm.portEnabled = true) :
      EapTransition c a sm (eapEntry c a .initializing sm, decide (sm.eap.state ≠ .initializing))
  | disabled (hclear : sm.portEnabled = true → sm.eapRestart = false)
      (hdisabled : sm.portEnabled = false ∨ sm.eap.forceDisabled = true) :
      EapTransition c a sm (eapEntry c a .disabled sm, decide (sm.eap.state ≠ .disabled))
  | tooMany (hclear : sm.eapRestart = false) (hport : sm.portEnabled = true) (hforce : sm.eap.forceDisabled = false)
      (hrounds : sm.eap.numRounds = eapMaxAuthRounds + 1) :
      EapTransition c a sm (eapEntry c a .failure (countRound sm), decide (sm.eap.state ≠ .failure))
  | exceeded (hclear : sm.eapRestart = false) (hport : sm.portEnabled = true) (hforce : sm.eap.forceDisabled = false)
      (hrounds : eapMaxAuthRounds + 1 < sm.eap.numRounds) : EapTransition c a sm (sm, false)
  | stay (hclear : sm.eapRestart = false) (hport : sm.portEnabled = true) (hforce : sm.eap.forceDisabled = false)
      (hrounds : sm.eap.numRounds ≤ eapMaxAuthRounds) (hmove : eapStepLocal sm = .stay) :
      EapTransition c a sm (sm, false)
  | enter (t : EapState) (hclear : sm.eapRestart = false) (hport : sm.portEnabled = true)
      (hforce : sm.eap.forceDisabled = false) (hrounds : sm.eap.numRounds ≤ eapMaxAuthRounds)
      (hmove : eapStepLocal sm = .enter t) : EapTransition c a sm (eapEntry c a t sm, true)

-- What was received for each state that is entered from RECEIVED. A request that a method processes
-- has selected one.
theorem eapStepReceived_cases (eap : EapSm) (h : eapStepReceived eap = t) :
    (t = .success ∧ eap.decision ≠ .fail) ∨ t = .failure ∨
      (t = .retransmit ∧ (eap.reqId : ℤ) = eap.lastId) ∨ t = .notification ∨
      (t = .identity ∧ eap.rxReq = true ∧ eap.reqMethod = eapTypeIdentity) ∨
      (t = .getMethod ∧ eap.rxReq = true ∧ eap.selectedMethod = eapTypeNone) ∨
      (t = .method ∧ eap.selectedMethod ≠ eapTypeNone) ∨ t = .discard := by
  unfold eapStepReceived at h
  dsimp only at h
  split at h
  case isTrue hsuccess => exact .inl ⟨h.symm, hsuccess.2.1⟩
  split at h
  case isTrue => exact .inr (.inl h.symm)
  split at h
  case isTrue hretransmit =>
    have hdup := hretransmit.2
    simp only [reqIsDuplicate, Bool.and_eq_true, decide_eq_true_eq] at hdup
    exact .inr (.inr (.inl ⟨h.symm, hdup.1.1⟩))
  split at h
  case isTrue => exact .inr (.inr (.inr (.inl h.symm)))
  split at h
  case isTrue hidentity => exact .inr (.inr (.inr (.inr (.inl ⟨h.symm, hidentity.1, hidentity.2.2.2⟩))))
  split at h
  case isTrue hget => exact .inr (.inr (.inr (.inr (.inr (.inl ⟨h.symm, hget.1, hget.2.2.1⟩)))))
  case isFalse hnew =>
    split at h
    case isTrue hmethod =>
      refine .inr (.inr (.inr (.inr (.inr (.inr (.inl ⟨h.symm, fun hnone => hnew ?_⟩))))))
      obtain ⟨hreq, hdup, heq, -⟩ := hmethod
      refine ⟨hreq, hdup, hnone, ?_, ?_⟩
      · rw [heq, hnone]
        decide
      · rw [heq, hnone]
        decide
    split at h
    case isTrue hleap =>
      refine .inr (.inr (.inr (.inr (.inr (.inr (.inl ⟨h.symm, ?_⟩))))))
      rw [hleap.1]
      decide
    case isFalse => exact .inr (.inr (.inr (.inr (.inr (.inr (.inr h.symm))))))

theorem eapStepReceived_mem (eap : EapSm) : eapStepReceived eap ∈
    [EapState.success, .failure, .retransmit, .notification, .identity, .getMethod, .method, .discard] := by
  rcases eapStepReceived_cases eap rfl with ⟨ht, -⟩ | ht | ⟨ht, -⟩ | ht | ⟨ht, -⟩ | ⟨ht, -⟩ | ⟨ht, -⟩ | ht
  all_goals simp [ht]

theorem eapStepIdle_cases {t : EapState} (hmove : eapStepIdle sm = .enter t) :
    (t = .received ∧ sm.eapReq = true) ∨ (t ∈ [EapState.success, .failure] ∧ sm.eapReq = false) := by
  unfold eapStepIdle at hmove
  repeat' split at hmove
  all_goals simp_all

theorem eapStepLocal_cases {t : EapState} (hmove : eapStepLocal sm = .enter t) :
    (sm.eap.state = .initializing ∧ t = .idle) ∨
      (sm.eap.state = .disabled ∧ t = .initializing) ∨
      (sm.eap.state = .idle ∧ sm.eapReq = true ∧ t = .received) ∨
      (sm.eap.state = .idle ∧ sm.eapReq = false ∧ t ∈ [EapState.success, .failure]) ∨
      (sm.eap.state = .received ∧ t = eapStepReceived sm.eap) ∨
      (sm.eap.state = .getMethod ∧ sm.eap.selectedMethod = sm.eap.reqMethod ∧ t = .method) ∨
      (sm.eap.state = .getMethod ∧ sm.eap.selectedMethod ≠ sm.eap.reqMethod ∧ t = .sendResponse) ∨
      (sm.eap.state = .method ∧ sm.eap.ignore = true ∧ t = .discard) ∨
      (sm.eap.state = .method ∧ sm.eap.ignore = false ∧ t = .sendResponse) ∨
      (sm.eap.state ∈ [EapState.sendResponse, .discard] ∧ t = .idle) ∨
      (sm.eap.state ∈ [EapState.identity, .notification, .retransmit] ∧ t = .sendResponse) := by
  unfold eapStepLocal at hmove
  cases hstate : sm.eap.state <;> simp only [hstate] at hmove
  case idle =>
    rcases eapStepIdle_cases hmove with ⟨rfl, hreq⟩ | ⟨ht, hreq⟩
    · simp [hreq]
    · simp [hreq] at ht ⊢
      exact ht
  case disabled =>
    split at hmove
    · simp_all
    · simp at hmove
  case getMethod =>
    split at hmove
    · simp_all
    · simp_all
  case method =>
    split at hmove
    · simp_all
    · simp_all
  all_goals simp_all

theorem eapStepLocal_not_global {t : EapState} : eapStepLocal sm ≠ .enterGlobal t := by
  unfold eapStepLocal eapStepIdle
  repeat' split
  all_goals simp

theorem eapStep_cases (c : Ctx) (a : Answer) (sm : Sm) : EapTransition c a sm (eapStep c a sm) := by
  unfold eapStep eapStepMove
  by_cases hrestart : sm.eapRestart = true ∧ sm.portEnabled = true
  · rw [if_pos hrestart]
    exact .restart hrestart.1 hrestart.2
  rw [if_neg hrestart]
  by_cases hdisabled : sm.portEnabled = false ∨ sm.eap.forceDisabled = true
  · rw [if_pos hdisabled]
    refine .disabled (fun hport => ?_) hdisabled
    cases hr : sm.eapRestart <;> simp_all
  rw [if_neg hdisabled]
  have hport : sm.portEnabled = true := by cases hp : sm.portEnabled <;> simp_all
  have hforce : sm.eap.forceDisabled = false := by cases hf : sm.eap.forceDisabled <;> simp_all
  have hclear : sm.eapRestart = false := by cases hr : sm.eapRestart <;> simp_all
  by_cases hrounds : eapMaxAuthRounds < sm.eap.numRounds
  · rw [if_pos hrounds]
    by_cases hmax : sm.eap.numRounds = eapMaxAuthRounds + 1
    · rw [if_pos hmax]
      exact .tooMany hclear hport hforce hmax
    · rw [if_neg hmax]
      exact .exceeded hclear hport hforce (by omega)
  · rw [if_neg hrounds]
    cases hmove : eapStepLocal sm with
    | stay => exact .stay hclear hport hforce (by omega) hmove
    | enter t => exact .enter t hclear hport hforce (by omega) hmove
    | enterGlobal t => exact absurd hmove eapStepLocal_not_global

theorem eapRank_local {t : EapState} (hrestart : sm.eapRestart = false) (hport : sm.portEnabled = true)
    (henabled : sm.eap.forceDisabled = false) (hrounds : ¬eapMaxAuthRounds < sm.eap.numRounds)
    (hmove : eapStepLocal sm = .enter t) : eapRank (eapEntry c a t sm) < eapRank sm := by
  obtain ⟨hreq', hrestart', -⟩ := eapEntry_vars c a t sm
  obtain ⟨henabled', hrounds'⟩ := eapEntry_eap c a t sm
  have hport' : (eapEntry c a t sm).portEnabled = true :=
    (congrArg Sm.portEnabled (eapEntry_eapolPart c a t sm) :).trans hport
  have hrestart'' : (eapEntry c a t sm).eapRestart = false := by
    rw [hrestart', hrestart]
    split <;> rfl
  have hrank : eapRank sm = localRank sm.eap.state sm.eapReq := by
    simp [eapRank, hrestart, hport, henabled, hrounds]
  -- the rank after the entry is at most that of the state that is entered
  have hrank' : eapRank (eapEntry c a t sm) ≤ if t = .received then 7 else localRank t (eapEntry c a t sm).eapReq := by
    by_cases ht : t = .received
    · subst ht
      simp only [eapRank, hrestart'', hport', henabled', henabled, eapEntry_state, localRank]
      simp
      split <;> omega
    have hfew : ¬eapMaxAuthRounds < (eapEntry c a t sm).eap.numRounds := by
      rw [hrounds', if_neg ht]
      split
      · decide
      · exact hrounds
    simp [eapRank, hrestart'', hport', henabled', henabled, hfew, ht]
  rw [hrank]
  refine lt_of_le_of_lt hrank' ?_
  rw [hreq']
  rcases eapStepLocal_cases hmove with ⟨hs, rfl⟩ | ⟨hs, rfl⟩ | ⟨hs, hq, rfl⟩ | ⟨hs, hq, ht⟩ | ⟨hs, ht⟩ |
    ⟨hs, -, rfl⟩ | ⟨hs, -, rfl⟩ | ⟨hs, -, rfl⟩ | ⟨hs, -, rfl⟩ | ⟨hs, rfl⟩ | ⟨hs, rfl⟩
  case inr.inr.inr.inl =>
    simp at ht
    rcases ht with rfl | rfl <;> simp [hs, hq, localRank]
  case inr.inr.inr.inr.inl =>
    have hmem := eapStepReceived_mem sm.eap
    rw [← ht] at hmem
    simp at hmem
    rcases hmem with rfl | rfl | rfl | rfl | rfl | rfl | rfl | rfl <;> simp [hs, localRank]
  case inr.inr.inr.inr.inr.inr.inr.inr.inr.inl =>
    simp at hs
    rcases hs with hs | hs <;> cases sm.eapReq <;> simp [hs, localRank]
  case inr.inr.inr.inr.inr.inr.inr.inr.inr.inr =>
    simp at hs
    rcases hs with hs | hs | hs <;> simp [hs, localRank]
  all_goals cases hq : sm.eapReq <;> simp_all [localRank]

-- A change of the EAP machine leaves fewer states to enter.
theorem eapRank_step (h : (eapStep c a sm).2 = true) : eapRank (eapStep c a sm).1 < eapRank sm := by
  revert h
  have hcases := eapStep_cases c a sm
  generalize eapStep c a sm = r at hcases ⊢
  cases hcases with
  | restart hrestart hport =>
    intro _
    simp [hrestart, hport, eapEntry, eapInitialize, eapRank, localRank]
    split <;> omega
  | disabled hclear hdisabled =>
    intro hchanged
    have hstate : sm.eap.state ≠ .disabled := by simpa using hchanged
    have hnot : ¬(sm.eapRestart = true ∧ sm.portEnabled = true) := by
      rintro ⟨hr, hp⟩
      simp [hclear hp] at hr
    simp [eapRank, eapEntry, hnot, hdisabled, hstate]
  | tooMany hclear hport hforce hrounds =>
    intro hchanged
    have hstate : sm.eap.state ≠ .failure := by simpa using hchanged
    have hmany : eapMaxAuthRounds < sm.eap.numRounds := by omega
    simp only [eapRank, eapEntry, eapFailureEntry, countRound, hclear, hport, hforce, Bool.false_eq_true,
      Bool.true_eq_false, false_and, or_self, if_false, if_true, if_pos hmany, if_pos (Nat.lt_succ_of_lt hmany),
      if_neg hstate]
    exact Nat.zero_lt_one
  | exceeded => simp
  | stay => simp
  | enter t hclear hport hforce hrounds hmove =>
    intro _
    exact eapRank_local hclear hport hforce (by omega) hmove

-- The loop keeps what every change keeps, and ends with a step that changes nothing.
theorem eapLoop_rule {I : Sm → Prop} {n : ℕ} (c : Ctx) (answers : ℕ → Answer) (res : Bool) (hrank : eapRank sm < n) (hinit : I sm)
    (hstep : ∀ k s, I s → (eapStep c (answers k) s).2 = true → I (eapStep c (answers k) s).1) :
    ∃ k s, I s ∧ (eapStep c (answers k) s).2 = false ∧
      (eapLoop c answers n sm res).1 = (eapStep c (answers k) s).1 ∧
      (s = sm ∧ (eapLoop c answers n sm res).2 = res ∨ (eapLoop c answers n sm res).2 = true) := by
  induction n generalizing sm res with
  | zero => omega
  | succ n ih =>
    unfold eapLoop
    cases h : (eapStep c (answers n) sm).2 with
    | true =>
      have hless := eapRank_step h
      obtain ⟨k, s, hs, hend, heq, hres⟩ := ih true (by omega) (hstep n sm hinit h)
      refine ⟨k, s, hs, hend, ?_, Or.inr ?_⟩
      · simpa [h] using heq
      · rcases hres with ⟨-, hres⟩ | hres
        · simpa [h] using hres
        · simpa [h] using hres
    | false => exact ⟨n, sm, hinit, h, by simp [h], Or.inl ⟨rfl, by simp [h]⟩⟩

end Loop

section Settled

variable {c : Ctx} {a : Answer} {sm : Sm} {answers : ℕ → Answer}

structure Settled (sm : Sm) : Prop where
  rest : sm.eap.state ∈ [EapState.idle, .disabled, .success, .failure]
  rounds : eapMaxAuthRounds < sm.eap.numRounds → sm.eap.state ∈ [EapState.success, .failure]

-- After a call, it has nothing to do.
structure Calm (sm : Sm) : Prop where
  restart : sm.portEnabled = true → sm.eapRestart = false
  disabled : sm.eap.state = .disabled ↔ sm.portEnabled = false ∨ sm.eap.forceDisabled = true
  idle : sm.eap.state = .idle → eapStepIdle sm = .stay

structure Looping (sm : Sm) : Prop where
  entered : sm.eap.state = .initializing → sm.eapRestart = false
  rounds : eapMaxAuthRounds + 1 < sm.eap.numRounds → sm.eap.state ∈ [EapState.success, .failure]

theorem Settled.looping (h : Settled sm) : Looping sm := by
  refine ⟨fun hstate => ?_, fun hrounds => h.rounds (by omega)⟩
  have hrest := h.rest
  rw [hstate] at hrest
  simp at hrest

theorem eapStep_looping (hchanged : (eapStep c a sm).2 = true) : Looping (eapStep c a sm).1 := by
  have hentry : ∀ (s : Sm) (t : EapState), (t = .received → s.eap.numRounds ≤ eapMaxAuthRounds) →
      (eapMaxAuthRounds + 1 < s.eap.numRounds → t ∈ [EapState.initializing, .disabled, .success, .failure]) →
      Looping (eapEntry c a t s) := by
    intro s t hreceived hmany
    obtain ⟨-, hrestart, -⟩ := eapEntry_vars c a t s
    obtain ⟨-, hrounds⟩ := eapEntry_eap c a t s
    constructor
    · intro hstate
      rw [eapEntry_state] at hstate
      rw [hrestart, if_pos hstate]
    · intro hlt
      rw [eapEntry_state]
      rw [hrounds] at hlt
      split at hlt
      · simp at hlt
      rename_i hnot
      split at hlt
      · rename_i ht
        have := hreceived ht
        omega
      · have hmem := hmany hlt
        simp at hmem hnot ⊢
        tauto
  revert hchanged
  have hcases := eapStep_cases c a sm
  generalize eapStep c a sm = r at hcases ⊢
  cases hcases with
  | restart => exact fun _ => hentry sm .initializing (by simp) (by simp)
  | disabled => exact fun _ => hentry sm .disabled (by simp) (by simp)
  | tooMany => exact fun _ => hentry (countRound sm) .failure (by simp) (by simp)
  | exceeded => simp
  | stay => simp
  | enter t _ _ _ hrounds _ => exact fun _ => hentry sm t (fun _ => hrounds) (by omega)

theorem Looping.last (h : Looping sm) (hchanged : (eapStep c a sm).2 = false) :
    Settled (eapStep c a sm).1 ∧ Calm (eapStep c a sm).1 := by
  have hfinal : ∀ s : Sm, s.portEnabled = true → s.eap.forceDisabled = false → s.eapRestart = false →
      s.eap.state ∈ [EapState.success, .failure] → Settled s ∧ Calm s := by
    intro s hport hforce hclear hstate
    have hne : s.eap.state ≠ .disabled ∧ s.eap.state ≠ .idle := by
      constructor <;> intro he <;> simp [he] at hstate
    refine ⟨⟨?_, fun _ => hstate⟩, ⟨fun _ => hclear, ?_, fun he => absurd he hne.2⟩⟩
    · simp at hstate ⊢
      tauto
    · simp [hne.1, hport, hforce]
  revert hchanged
  have hcases := eapStep_cases c a sm
  generalize eapStep c a sm = r at hcases ⊢
  cases hcases with
  | restart hrestart hport =>
    intro hchanged
    have hstate : sm.eap.state = .initializing := by simpa using hchanged
    simp [h.entered hstate] at hrestart
  | disabled hclear hdisabled =>
    intro _
    exact ⟨⟨by simp, by simp [eapEntry]⟩, ⟨hclear, by simpa [eapEntry] using hdisabled, by simp⟩⟩
  | tooMany hclear hport hforce hrounds => exact fun _ => hfinal _ hport hforce hclear (by simp)
  | exceeded hclear hport hforce hrounds => exact fun _ => hfinal _ hport hforce hclear (h.rounds hrounds)
  | stay hclear hport hforce hrounds hmove =>
    intro _
    unfold eapStepLocal at hmove
    cases hstate : sm.eap.state <;> simp only [hstate] at hmove
    case idle =>
      exact ⟨⟨by simp [hstate], fun hr => absurd hr (Nat.not_lt.mpr hrounds)⟩,
        ⟨fun _ => hclear, by simp [hstate, hport, hforce], fun _ => hmove⟩⟩
    case success => exact hfinal _ hport hforce hclear (by simp [hstate])
    case failure => exact hfinal _ hport hforce hclear (by simp [hstate])
    case disabled => simp [hport, hforce] at hmove
    case getMethod => split at hmove <;> simp at hmove
    case method => split at hmove <;> simp at hmove
    all_goals simp at hmove
  | enter => simp

theorem eapLoop_settled (c : Ctx) (answers : ℕ → Answer) (h : Settled sm) :
    Settled (eapLoop c answers eapLoopBound sm false).1 ∧ Calm (eapLoop c answers eapLoopBound sm false).1 := by
  obtain ⟨k, s, hs, hend, heq, -⟩ := eapLoop_rule c answers false
    eapRank_lt_eapLoopBound h.looping (fun k s _ hc => eapStep_looping hc)
  rw [heq]
  exact hs.last hend

theorem eapPeerSmStep_settled (c : Ctx) (answers : ℕ → Answer) (h : Settled sm) :
    Settled (eapPeerSmStep c answers sm).1 ∧ Calm (eapPeerSmStep c answers sm).1 := by
  have hlast := eapLoop_settled c answers h
  unfold eapPeerSmStep
  dsimp only
  split
  · obtain ⟨⟨h1, h2⟩, ⟨h3, h4, h5⟩⟩ := hlast
    exact ⟨⟨h1, h2⟩, ⟨h3, h4, h5⟩⟩
  · exact hlast

end Settled

end WpaSupplicant.EapolSupp

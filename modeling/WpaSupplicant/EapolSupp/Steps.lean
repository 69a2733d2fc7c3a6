import WpaSupplicant.EapolSupp.Lemmas

namespace WpaSupplicant.EapolSupp

open Lib.StateMachine

section Pae

variable {sm : Sm}

inductive PaeMove (sm : Sm) : PaeState → Prop where
  | login (hpae : sm.pae = .logoff) (hlogoff : sm.userLogoff = false) : PaeMove sm .disconnected
  | connect (hpae : sm.pae = .disconnected) : PaeMove sm .connecting
  | start (hpae : sm.pae = .connecting) (hwhen : sm.startWhen = 0) (hcount : sm.startCount < sm.maxStart) :
      PaeMove sm .connecting
  | noAuthenticator (hpae : sm.pae = .connecting) (hwhen : sm.startWhen = 0) (hcount : sm.maxStart ≤ sm.startCount)
      (hvalid : sm.portValid = true) : PaeMove sm .authenticated
  | result (hpae : sm.pae = .connecting) (hresult : sm.eapSuccess = true ∨ sm.eapFail = true) :
      PaeMove sm .authenticating
  | request (hpae : sm.pae = .connecting) (hsuccess : sm.eapSuccess = false) (hfail : sm.eapFail = false)
      (heap : sm.eapolEap = true) : PaeMove sm .restart
  | noAnswer (hpae : sm.pae = .connecting) (hwhen : sm.startWhen = 0) (hcount : sm.maxStart ≤ sm.startCount)
      (hvalid : sm.portValid = false) (hsuccess : sm.eapSuccess = false) (hfail : sm.eapFail = false)
      (heap : sm.eapolEap = false) : PaeMove sm .held
  | success (hpae : sm.pae = .authenticating) (hsuccess : sm.eapSuccess = true) (hvalid : sm.portValid = true) :
      PaeMove sm .authenticated
  | failure (hpae : sm.pae = .authenticating)
      (hfail : sm.eapFail = true ∨ (sm.keyDone = true ∧ sm.portValid = false)) : PaeMove sm .held
  | timeout (hpae : sm.pae = .authenticating) (hfail : sm.eapFail = false) (htimeout : sm.suppTimeout = true) :
      PaeMove sm .connecting
  | retry (hpae : sm.pae = .held) (hwhile : sm.heldWhile = 0) : PaeMove sm .connecting
  | heldRequest (hpae : sm.pae = .held) (hwhile : sm.heldWhile ≠ 0) (heap : sm.eapolEap = true) : PaeMove sm .restart
  | reauthenticate (hpae : sm.pae = .authenticated) (heap : sm.eapolEap = true) (hvalid : sm.portValid = true) :
      PaeMove sm .restart
  | invalid (hpae : sm.pae = .authenticated) (hvalid : sm.portValid = false) : PaeMove sm .disconnected
  | restarted (hpae : sm.pae = .restart) (hrestart : sm.eapRestart = false) : PaeMove sm .authenticating

theorem paeStepLocal_move {t : PaeState} (hmove : paeStepLocal sm = .enter t) : PaeMove sm t := by
  unfold paeStepLocal at hmove
  cases hpae : sm.pae <;> simp only [hpae] at hmove
  case logoff =>
    split at hmove
    · rename_i h
      obtain rfl : PaeState.disconnected = t := by simpa using hmove
      exact .login hpae h
    · simp at hmove
  case disconnected =>
    obtain rfl : PaeState.connecting = t := by simpa using hmove
    exact .connect hpae
  case connecting =>
    split at hmove
    · rename_i h
      obtain rfl : PaeState.connecting = t := by simpa using hmove
      exact .start hpae h.1 h.2
    split at hmove
    · rename_i h
      obtain rfl : PaeState.authenticated = t := by simpa using hmove
      exact .noAuthenticator hpae h.1 h.2.1 h.2.2
    split at hmove
    · rename_i h
      obtain rfl : PaeState.authenticating = t := by simpa using hmove
      exact .result hpae h
    rename_i hresult
    have hsuccess : sm.eapSuccess = false := by simp_all
    have hfail : sm.eapFail = false := by simp_all
    split at hmove
    · rename_i h
      obtain rfl : PaeState.restart = t := by simpa using hmove
      exact .request hpae hsuccess hfail h
    rename_i heap
    split at hmove
    · rename_i h
      obtain rfl : PaeState.held = t := by simpa using hmove
      exact .noAnswer hpae h.1 h.2.1 h.2.2 hsuccess hfail (by simpa using heap)
    · simp at hmove
  case authenticating =>
    split at hmove
    · rename_i h
      obtain rfl : PaeState.authenticated = t := by simpa using hmove
      exact .success hpae h.1 h.2
    split at hmove
    · rename_i h
      obtain rfl : PaeState.held = t := by simpa using hmove
      exact .failure hpae h
    rename_i hfail
    split at hmove
    · rename_i h
      obtain rfl : PaeState.connecting = t := by simpa using hmove
      exact .timeout hpae (by simp_all) h
    · simp at hmove
  case held =>
    split at hmove
    · rename_i h
      obtain rfl : PaeState.connecting = t := by simpa using hmove
      exact .retry hpae h
    rename_i hwhile
    split at hmove
    · rename_i h
      obtain rfl : PaeState.restart = t := by simpa using hmove
      exact .heldRequest hpae hwhile h
    · simp at hmove
  case authenticated =>
    split at hmove
    · rename_i h
      obtain rfl : PaeState.restart = t := by simpa using hmove
      exact .reauthenticate hpae h.1 h.2
    split at hmove
    · rename_i h
      obtain rfl : PaeState.disconnected = t := by simpa using hmove
      exact .invalid hpae h
    · simp at hmove
  case restart =>
    split at hmove
    · rename_i h
      obtain rfl : PaeState.authenticating = t := by simpa using hmove
      exact .restarted hpae h
    · simp at hmove
  all_goals simp at hmove

theorem paeStepLocal_not_global {t : PaeState} : paeStepLocal sm ≠ .enterGlobal t := by
  unfold paeStepLocal
  repeat' split
  all_goals simp

inductive PaeTransition (sm : Sm) : Sm × Bool → Prop where
  | logoff (hlogoff : sm.userLogoff = true) (hsent : sm.logoffSent = false) (hinit : sm.initializing = false)
      (hport : sm.portEnabled = true) : PaeTransition sm (paeEntry .logoff sm, decide (sm.pae ≠ .logoff))
  | disconnected (hlogoff : ¬(sm.userLogoff = true ∧ sm.logoffSent = false ∧ sm.initializing = false ∧
        sm.portEnabled = true))
      (hdown : (sm.portControl = .auto ∧ sm.sPortMode ≠ sm.portControl) ∨ sm.initializing = true ∨
        sm.portEnabled = false) :
      PaeTransition sm (paeEntry .disconnected sm, decide (sm.pae ≠ .disconnected))
  | force (t : PaeState) (mode : PortControl) (ht : (t, mode) ∈ [(.sForceAuth, .forceAuthorized),
        (.sForceUnauth, .forceUnauthorized)]) (hport : sm.portEnabled = true) (hinit : sm.initializing = false)
      (hcontrol : sm.portControl = mode) (hmode : sm.sPortMode ≠ mode) :
      PaeTransition sm (paeEntry t sm, decide (sm.pae ≠ t))
  | stay (hport : sm.portEnabled = true) (hinit : sm.initializing = false) (hmode : sm.sPortMode = sm.portControl)
      (hlogoff : sm.userLogoff = true → sm.logoffSent = true)
      (hmove : paeStepLocal (acceptPlaintext sm) = .stay) : PaeTransition sm (acceptPlaintext sm, false)
  | enter (t : PaeState) (hport : sm.portEnabled = true) (hinit : sm.initializing = false)
      (hmode : sm.sPortMode = sm.portControl) (hlogoff : sm.userLogoff = true → sm.logoffSent = true)
      (hmove : PaeMove (acceptPlaintext sm) t) : PaeTransition sm (paeEntry t (acceptPlaintext sm), true)

theorem paeStep_cases (sm : Sm) : PaeTransition sm (paeStep sm) := by
  unfold paeStep paeStepMove
  by_cases hlogoff : sm.userLogoff = true ∧ sm.logoffSent = false ∧ sm.initializing = false ∧ sm.portEnabled = true
  · rw [if_pos hlogoff]
    exact .logoff hlogoff.1 hlogoff.2.1 hlogoff.2.2.1 hlogoff.2.2.2
  rw [if_neg hlogoff]
  by_cases hdown : (sm.portControl = .auto ∧ sm.sPortMode ≠ sm.portControl) ∨ sm.initializing = true ∨
      sm.portEnabled = false
  · rw [if_pos hdown]
    exact .disconnected hlogoff hdown
  rw [if_neg hdown]
  have hport : sm.portEnabled = true := by cases h : sm.portEnabled <;> simp_all
  have hinit : sm.initializing = false := by cases h : sm.initializing <;> simp_all
  have hauto : sm.portControl = .auto → sm.sPortMode = sm.portControl := by
    intro h
    by_contra hne
    exact hdown (Or.inl ⟨h, hne⟩)
  by_cases hauth : sm.portControl = .forceAuthorized ∧ sm.sPortMode ≠ sm.portControl
  · rw [if_pos hauth]
    exact .force .sForceAuth .forceAuthorized (by simp) hport hinit hauth.1 (hauth.1 ▸ hauth.2)
  rw [if_neg hauth]
  by_cases hunauth : sm.portControl = .forceUnauthorized ∧ sm.sPortMode ≠ sm.portControl
  · rw [if_pos hunauth]
    exact .force .sForceUnauth .forceUnauthorized (by simp) hport hinit hunauth.1 (hunauth.1 ▸ hunauth.2)
  rw [if_neg hunauth]
  have hmode : sm.sPortMode = sm.portControl := by
    cases h : sm.portControl
    · exact h ▸ hauto h
    · by_contra hne
      exact hunauth ⟨h, h ▸ hne⟩
    · by_contra hne
      exact hauth ⟨h, h ▸ hne⟩
  have hsent : sm.userLogoff = true → sm.logoffSent = true := by
    intro h
    by_contra hne
    exact hlogoff ⟨h, by simpa using hne, hinit, hport⟩
  cases hmove : paeStepLocal (acceptPlaintext sm) with
  | stay => exact .stay hport hinit hmode hsent hmove
  | enter t => exact .enter t hport hinit hmode hsent (paeStepLocal_move hmove)
  | enterGlobal t => exact absurd hmove paeStepLocal_not_global

theorem acceptPlaintext_eq (sm : Sm) : ∃ valid, acceptPlaintext sm = { sm with portValid := valid } := by
  unfold acceptPlaintext
  split
  · exact ⟨true, rfl⟩
  · exact ⟨sm.portValid, rfl⟩

end Pae

section KeyRx

variable {c : Ctx} {set : Bool} {sm : Sm}

def keyPart (sm : Sm) : Sm :=
  { sm with
    keyRx := .unknown, rxKey := false, portValid := false, replayCounterValid := false, lastReplayCounter := [],
    unicastKeyReceived := false, broadcastKeyReceived := false, eapSuccess := false
    eap := { sm.eap with eapKeyAvailable := false, trace := [] } }

-- What a received key does to the results of the EAP machine: nothing, or it is taken as a success
inductive KeyEffect (sm : Sm) : Sm → Prop where
  | none {s : Sm} (hpart : keyPart s = keyPart sm) (hsuccess : s.eapSuccess = sm.eapSuccess)
      (htrace : s.eap.trace = sm.eap.trace) (havailable : s.eap.eapKeyAvailable = sm.eap.eapKeyAvailable) :
      KeyEffect sm s
  | success {s : Sm} (hpart : keyPart s = keyPart sm) (hdecision : sm.eap.decision ≠ .fail)
      (hsuccess : s.eapSuccess = true) (htrace : s.eap.trace = .success :: sm.eap.trace)
      (havailable : s.eap.eapKeyAvailable = (sm.eap.eapKeyAvailable || sm.eap.eapKeyData.isSome)) : KeyEffect sm s

theorem KeyEffect.part {s : Sm} (h : KeyEffect sm s) : keyPart s = keyPart sm := by
  cases h with
  | none hpart => exact hpart
  | success hpart => exact hpart

theorem KeyEffect.monotone {s : Sm} (h : KeyEffect sm s) (hs : sm.eapSuccess = true) : s.eapSuccess = true := by
  cases h with
  | none _ hsuccess => exact hsuccess.trans hs
  | success _ _ hsuccess => exact hsuccess

theorem KeyEffect.trans {s s' : Sm} (h : KeyEffect sm s) (hpart : keyPart s' = keyPart s)
    (hsuccess : s'.eapSuccess = s.eapSuccess) (heap : s'.eap = s.eap) : KeyEffect sm s' := by
  cases h with
  | none h1 h2 h3 h4 => exact .none (hpart.trans h1) (hsuccess.trans h2) (heap ▸ h3) (heap ▸ h4)
  | success h1 h2 h3 h4 h5 => exact .success (hpart.trans h1) h2 (hsuccess.trans h3) (heap ▸ h4) (heap ▸ h5)

theorem notifyLowerLayerSuccess_effect (sm : Sm) : KeyEffect sm (notifyLowerLayerSuccess sm) := by
  unfold notifyLowerLayerSuccess
  split
  · exact .none rfl rfl rfl rfl
  · rename_i h
    exact .success rfl (fun hd => h (Or.inr (Or.inl hd))) rfl rfl rfl

theorem processKey_effect (c : Ctx) (set : Bool) (sm : Sm) : KeyEffect sm (processKey c set sm) := by
  have hnone : KeyEffect sm sm := .none rfl rfl rfl rfl
  have hsome : KeyEffect sm (notifyLowerLayerSuccess sm) := notifyLowerLayerSuccess_effect sm
  unfold processKey
  dsimp only
  split
  · exact hnone
  split
  · exact hnone
  split
  · exact hnone
  split
  · exact hsome
  split
  · split <;> exact hsome.trans rfl rfl rfl
  · exact hsome

theorem keyRxEntry_effect (c : Ctx) (set : Bool) (sm : Sm) (t : KeyRxState) : KeyEffect sm (keyRxEntry c set t sm) := by
  cases t with
  | keyReceive =>
    have h := processKey_effect c set { sm with keyRx := .keyReceive }
    have h' : KeyEffect sm (processKey c set { sm with keyRx := .keyReceive }) := by
      cases h with
      | none h1 h2 h3 h4 => exact .none h1 h2 h3 h4
      | success h1 h2 h3 h4 h5 => exact .success h1 h2 h3 h4 h5
    exact h'.trans rfl rfl rfl
  | unknown => exact .none rfl rfl rfl rfl
  | noKeyReceive => exact .none rfl rfl rfl rfl

theorem keyRxStep_effect (c : Ctx) (set : Bool) (sm : Sm) : KeyEffect sm (keyRxStep c set sm).1 := by
  unfold keyRxStep
  dsimp only
  have hglobal : ∃ state, ((keyRxGlobal sm).run Sm.keyRx (keyRxEntry c set) sm).1 = { sm with keyRx := state } := by
    unfold keyRxGlobal
    split
    · exact ⟨_, rfl⟩
    · exact ⟨sm.keyRx, rfl⟩
  obtain ⟨state, hglobal⟩ := hglobal
  rw [hglobal]
  apply Move.run_rule (I := fun s => KeyEffect sm s)
  · exact fun _ => .none rfl rfl rfl rfl
  · intro t _
    have h := keyRxEntry_effect c set { sm with keyRx := state } t
    cases h with
    | none h1 h2 h3 h4 => exact .none h1 h2 h3 h4
    | success h1 h2 h3 h4 h5 => exact .success h1 h2 h3 h4 h5

end KeyRx

section Be

variable {sm : Sm}

-- The moves of the backend machine where nothing aborts it
inductive BeMove (sm : Sm) : BeState → Prop where
  | respond (hbe : sm.be = .request) (hresp : sm.eapResp = true) : BeMove sm .response
  | noResponse (hbe : sm.be = .request) (hno : sm.eapNoResp = true) : BeMove sm .receive
  | requestFail (hbe : sm.be = .request) (hfail : sm.eapFail = true) : BeMove sm .fail
  | requestSuccess (hbe : sm.be = .request) (hsuccess : sm.eapSuccess = true) : BeMove sm .success
  | responded (hbe : sm.be = .response) : BeMove sm .receive
  | ended (hbe : sm.be ∈ [BeState.success, .fail, .timeout, .initializing]) : BeMove sm .idle
  | startFail (hbe : sm.be = .idle) (hfail : sm.eapFail = true) (hstart : sm.suppStart = true) : BeMove sm .fail
  | startRequest (hbe : sm.be = .idle) (hfail : sm.eapFail = false) (heap : sm.eapolEap = true)
      (hstart : sm.suppStart = true) : BeMove sm .request
  | startSuccess (hbe : sm.be = .idle) (hfail : sm.eapFail = false) (heap : sm.eapolEap = false)
      (hsuccess : sm.eapSuccess = true) (hstart : sm.suppStart = true) : BeMove sm .success
  | request (hbe : sm.be = .receive) (heap : sm.eapolEap = true) : BeMove sm .request
  | fail (hbe : sm.be = .receive) (heap : sm.eapolEap = false) (hfail : sm.eapFail = true) : BeMove sm .fail
  | timeout (hbe : sm.be = .receive) (heap : sm.eapolEap = false) (hfail : sm.eapFail = false)
      (hwhile : sm.authWhile = 0) : BeMove sm .timeout
  | success (hbe : sm.be = .receive) (heap : sm.eapolEap = false) (hfail : sm.eapFail = false)
      (hsuccess : sm.eapSuccess = true) : BeMove sm .success

inductive BeTransition (sm : Sm) : Sm × Bool → Prop where
  | abort (habort : sm.initializing = true ∨ sm.suppAbort = true) :
      BeTransition sm (beEntry .initializing sm, decide (sm.be ≠ .initializing))
  | stay (hinit : sm.initializing = false) (habort : sm.suppAbort = false) (hmove : beStepMove sm = .stay) :
      BeTransition sm (sm, false)
  | enter (t : BeState) (hinit : sm.initializing = false) (habort : sm.suppAbort = false) (hmove : BeMove sm t) :
      BeTransition sm (beEntry t sm, true)

theorem beStep_cases (sm : Sm) : BeTransition sm (beStep sm) := by
  unfold beStep
  by_cases habort : sm.initializing = true ∨ sm.suppAbort = true
  · have hmove : beStepMove sm = .enterGlobal .initializing := by simp [beStepMove, habort]
    rw [hmove]
    exact .abort habort
  have hinit : sm.initializing = false := by cases h : sm.initializing <;> simp_all
  have hnot : sm.suppAbort = false := by cases h : sm.suppAbort <;> simp_all
  cases hmove : beStepMove sm with
  | stay => exact .stay hinit hnot hmove
  | enterGlobal t =>
    unfold beStepMove at hmove
    rw [if_neg habort] at hmove
    repeat' split at hmove
    all_goals simp at hmove
  | enter t =>
    refine .enter t hinit hnot ?_
    unfold beStepMove at hmove
    rw [if_neg habort] at hmove
    cases hbe : sm.be <;> simp only [hbe] at hmove
    case unknown => simp at hmove
    case request =>
      repeat' split at hmove
      all_goals simp at hmove
      · exact hmove ▸ .respond hbe ‹_›
      · exact hmove ▸ .noResponse hbe ‹_›
      · exact hmove ▸ .requestFail hbe ‹_›
      · exact hmove ▸ .requestSuccess hbe ‹_›
    case response =>
      simp at hmove
      exact hmove ▸ .responded hbe
    case idle =>
      split at hmove
      · rename_i h
        simp at hmove
        exact hmove ▸ .startFail hbe h.1 h.2
      rename_i hfail
      split at hmove
      · rename_i h
        simp at hmove
        exact hmove ▸ .startRequest hbe (by simpa [h.2] using hfail) h.1 h.2
      rename_i heap
      split at hmove
      · rename_i h
        simp at hmove
        exact hmove ▸ .startSuccess hbe (by simpa [h.2] using hfail) (by simpa [h.2] using heap) h.1 h.2
      · simp at hmove
    case receive =>
      split at hmove
      · rename_i h
        simp at hmove
        exact hmove ▸ .request hbe h
      rename_i heap
      split at hmove
      · rename_i h
        simp at hmove
        exact hmove ▸ .fail hbe (by simpa using heap) h
      rename_i hfail
      split at hmove
      · rename_i h
        simp at hmove
        exact hmove ▸ .timeout hbe (by simpa using heap) (by simpa using hfail) h
      split at hmove
      · rename_i h
        simp at hmove
        exact hmove ▸ .success hbe (by simpa using heap) (by simpa using hfail) h
      · simp at hmove
    all_goals
      simp at hmove
      exact hmove ▸ .ended (by simp [hbe])

end Be

section Init

variable {c : Ctx} {env : ℕ → Env} {n : ℕ} {sm s : Sm}

theorem iterations_changed (h : iteration c (env n) sm = (s, true)) :
    iterations c env (n + 1) sm = iterations c env n s := by
  simp [iterations, h]

theorem iterations_done (h : iteration c (env n) sm = (s, false)) : iterations c env (n + 1) sm = (s, false) := by
  simp [iterations, h]

def eapolSmStart : Sm :=
  { pae := .disconnected, be := .initializing, keyRx := .noKeyReceive, eap := { state := .disabled } }

theorem iteration_eq {env : Env} {sm s₁ s₂ s₃ s₄ : Sm} {b₁ b₂ b₃ b₄ : Bool} (h₁ : paeStep sm = (s₁, b₁))
    (h₂ : keyRxStep c env.setWepKey s₁ = (s₂, b₂)) (h₃ : beStep s₂ = (s₃, b₃))
    (h₄ : eapPeerSmStep c env.eap s₃ = (s₄, b₄)) : iteration c env sm = (s₄, b₁ || b₂ || b₃ || b₄) := by
  simp only [iteration, h₁, h₂, h₃, h₄]

theorem iteration_start (c : Ctx) (env : Env) (b : Bool) :
    iteration c env { eapolSmStart with initializing := b } = ({ eapolSmStart with initializing := b }, false) := by
  have hpae : paeStep { eapolSmStart with initializing := b } =
      ({ eapolSmStart with initializing := b, suppAbort := true }, false) := by cases b <;> rfl
  have hkey : keyRxStep c env.setWepKey { eapolSmStart with initializing := b, suppAbort := true } =
      ({ eapolSmStart with initializing := b, suppAbort := true }, false) := by cases b <;> rfl
  have hbe : beStep { eapolSmStart with initializing := b, suppAbort := true } =
      ({ eapolSmStart with initializing := b }, false) := by cases b <;> rfl
  have heap : eapPeerSmStep c env.eap { eapolSmStart with initializing := b } =
      ({ eapolSmStart with initializing := b }, false) := rfl
  exact iteration_eq hpae hkey hbe heap

theorem eapolSmInit_eq (c : Ctx) (env env' : ℕ → Env) : eapolSmInit c env env' = eapolSmStart := by
  have hpae : paeStep { initializing := true } =
      ({ initializing := true, pae := .disconnected, suppAbort := true }, true) := rfl
  have hkey : keyRxStep c (env 99).setWepKey { initializing := true, pae := .disconnected, suppAbort := true } =
      ({ initializing := true, pae := .disconnected, suppAbort := true, keyRx := .noKeyReceive }, true) := rfl
  have hbe : beStep { initializing := true, pae := .disconnected, suppAbort := true, keyRx := .noKeyReceive } =
      ({ initializing := true, pae := .disconnected, keyRx := .noKeyReceive, be := .initializing }, true) := rfl
  have heap : eapPeerSmStep c (env 99).eap
      { initializing := true, pae := .disconnected, keyRx := .noKeyReceive, be := .initializing } =
      ({ eapolSmStart with initializing := true }, true) := rfl
  have hfirst : iteration c (env 99) { initializing := true } = ({ eapolSmStart with initializing := true }, true) :=
    iteration_eq hpae hkey hbe heap
  have hsecond : iteration c (env 98) { eapolSmStart with initializing := true } =
      ({ eapolSmStart with initializing := true }, false) := iteration_start c (env 98) true
  have hstart : iteration c (env' 99) eapolSmStart = (eapolSmStart, false) := iteration_start c (env' 99) false
  unfold eapolSmInit eapolSmStep
  rw [iterations_changed hfirst, iterations_done hsecond]
  show (iterations c env' (99 + 1) eapolSmStart).1 = _
  rw [iterations_done hstart]

end Init

end WpaSupplicant.EapolSupp

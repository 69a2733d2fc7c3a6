import WpaSupplicant.Wps.Proof

namespace WpaSupplicant.Wps

open Enrollee (refuse openSettings saveMsg)

section Transition

variable (c : Crypto)

def Registrar.tracked : State → Bool
  | .recvM3 | .sendM4 | .recvM5 | .sendM6 | .recvM7 | .sendM8 => true
  | _ => false

inductive Registrar.Transition (e : Entry) (wps : WpsData) : Prop where
  | stay (hstate : wps.state = e.1.state) (h : SameSecrets wps e)
  | ended (hstate : Registrar.tracked wps.state = false)
  | m2 (hstate : wps.state = .recvM3) (hkeyed : Keyed c [e] wps) (hpass : wps.devPassword.isSome)
  | m3 (hbefore : e.1.state = .recvM3) (hstate : wps.state = .sendM4)
      (h : AcceptsM3 c e wps.peerHash1 wps.peerHash2) (hbase : base e.1 = base wps)
  | m4 (hbefore : e.1.state = .sendM4) (hstate : wps.state = .sendM4 ∨ wps.state = .recvM5)
      (h : SameCommitment wps e) (hpsk : wps.psk1 = psk1Of c wps.authkey (wps.devPassword.getD []))
      (hpsk2 : wps.psk2 = psk2Of c wps.authkey (wps.devPassword.getD []))
  | m5 (hstate : wps.state = .sendM6) (h : OpensM5 c e) (hsame : SameSecrets wps e)
  | m6 (hbefore : e.1.state = .sendM6) (hstate : wps.state = .recvM7) (hsame : SameSecrets wps e)
  | m7 (hstate : wps.state = .sendM8) (h : OpensM7 c e) (hsame : SameSecrets wps e)

end Transition

section Registrar

variable {c : Crypto} {env : Env} {ctx : Context} {wps : WpsData} {msg : Octets} {attr : ParseAttr}

theorem readM1_state : (Registrar.readM1 env ctx wps attr).1.state = wps.state := by
  unfold Registrar.readM1
  repeat' split
  all_goals rfl

theorem readM1_registrar : (Registrar.readM1 env ctx wps attr).1.registrar = wps.registrar := by
  unfold Registrar.readM1
  repeat' split
  all_goals rfl

theorem checkMsg_ok {state : State} {u : Unit} (h : Registrar.checkMsg c ctx wps msg attr state = .ok u) :
    wps.state = state ∧ attr.registrarNonce = some wps.nonceR ∧
      processAuthenticator c wps attr.authenticator msg = true := by
  unfold Registrar.checkMsg at h
  split at h
  · cases h
  rename_i hstate
  split at h
  · cases h
  split at h
  · cases h
  rename_i hnonce
  simp only [not_or, not_not] at hnonce
  exact ⟨not_not.mp hstate, hnonce⟩

theorem checkMsg_error {state : State} {wps' : WpsData}
    (h : Registrar.checkMsg c ctx wps msg attr state = .error wps') :
    wps'.state = .sendWscNack ∧ wps'.registrar = wps.registrar := by
  unfold Registrar.checkMsg at h
  split at h
  · cases h
    exact ⟨rfl, rfl⟩
  split at h
  · cases h
    exact ⟨rfl, rfl⟩
  split at h
  · cases h
    exact ⟨rfl, rfl⟩
  · cases h

theorem processM3_cases (c : Crypto) (ctx : Context) (wps : WpsData) (msg : Octets) (attr : ParseAttr) :
    ((Registrar.processM3 c ctx wps msg attr).state = .sendWscNack ∧
      (Registrar.processM3 c ctx wps msg attr).registrar = wps.registrar) ∨
    ∃ h1 h2, wps.state = .recvM3 ∧ attr.registrarNonce = some wps.nonceR ∧
      processAuthenticator c wps attr.authenticator msg = true ∧ attr.eHash1 = some h1 ∧
      attr.eHash2 = some h2 ∧ Registrar.processM3 c ctx wps msg attr =
        { wps with peerHash1 := h1, peerHash2 := h2, state := .sendM4 } := by
  unfold Registrar.processM3
  split
  · rename_i herror
    exact .inl (checkMsg_error herror)
  rename_i hok
  obtain ⟨hstate, hnonce, hauth⟩ := checkMsg_ok hok
  split
  · exact .inl ⟨rfl, rfl⟩
  rename_i h1 hh1
  split
  · exact .inl ⟨rfl, rfl⟩
  · rename_i h2 hh2
    exact .inr ⟨h1, h2, hstate, hnonce, hauth, hh1, hh2, rfl⟩

theorem processM5_cases (c : Crypto) (env : Env) (ctx : Context) (wps : WpsData) (msg : Octets)
    (attr : ParseAttr) :
    ((Registrar.processM5 c env ctx wps msg attr).1.state = .sendWscNack ∧
      (Registrar.processM5 c env ctx wps msg attr).1.registrar = wps.registrar) ∨
    ∃ plain eattr n, wps.state = .recvM5 ∧
      processAuthenticator c wps attr.authenticator msg = true ∧
      openSettings c env wps attr = some (plain, eattr) ∧ eattr.eSnonce1 = some n ∧
      commitment1 c wps.toSecrets n = wps.peerHash1 ∧
      (Registrar.processM5 c env ctx wps msg attr).1 = { wps with state := .sendM6 } := by
  unfold Registrar.processM5
  split
  · rename_i herror
    exact .inl (checkMsg_error herror)
  rename_i hok
  obtain ⟨hstate, -, hauth⟩ := checkMsg_ok hok
  split
  · exact .inl ⟨rfl, rfl⟩
  rename_i plain eattr hopen
  unfold Registrar.processESnonce1
  dsimp only
  split
  · exact .inl ⟨rfl, rfl⟩
  rename_i n hn
  split
  · rename_i hcommit
    exact .inr ⟨plain, eattr, n, hstate, hauth, hopen, hn, hcommit.symm, rfl⟩
  · exact .inl ⟨rfl, rfl⟩

theorem processApSettingsR_keeps (env : Env) (ctx : Context) (wps : WpsData) (attr : ParseAttr) :
    (Registrar.processApSettingsR env ctx wps attr).1.toSecrets = wps.toSecrets ∧
      (Registrar.processApSettingsR env ctx wps attr).1.macAddrE = wps.macAddrE ∧
      (Registrar.processApSettingsR env ctx wps attr).1.registrar = wps.registrar := by
  unfold Registrar.processApSettingsR
  split
  · exact ⟨rfl, rfl, rfl⟩
  split
  · exact ⟨rfl, rfl, rfl⟩
  split
  · exact ⟨rfl, rfl, rfl⟩
  split
  · exact ⟨rfl, rfl, rfl⟩
  · split <;> exact ⟨rfl, rfl, rfl⟩

theorem processM7_cases (c : Crypto) (env : Env) (ctx : Context) (wps : WpsData) (msg : Octets)
    (attr : ParseAttr) :
    ((Registrar.processM7 c env ctx wps msg attr).1.state = .sendWscNack ∧
      (Registrar.processM7 c env ctx wps msg attr).1.registrar = wps.registrar) ∨
    ∃ plain eattr n, wps.state = .recvM7 ∧
      processAuthenticator c wps attr.authenticator msg = true ∧
      openSettings c env wps attr = some (plain, eattr) ∧ eattr.eSnonce2 = some n ∧
      commitment2 c wps.toSecrets n = wps.peerHash2 ∧
      (Registrar.processM7 c env ctx wps msg attr).1.state = .sendM8 ∧
      (Registrar.processM7 c env ctx wps msg attr).1.registrar = wps.registrar ∧
      (Registrar.processM7 c env ctx wps msg attr).1.toSecrets = wps.toSecrets ∧
      (Registrar.processM7 c env ctx wps msg attr).1.macAddrE = wps.macAddrE := by
  unfold Registrar.processM7
  split
  · rename_i herror
    exact .inl (checkMsg_error herror)
  rename_i hok
  obtain ⟨hstate, -, hauth⟩ := checkMsg_ok hok
  split
  · exact .inl ⟨rfl, rfl⟩
  rename_i plain eattr hopen
  unfold Registrar.processM7Settings Registrar.processESnonce2
  cases hn : eattr.eSnonce2 with
  | none => exact .inl ⟨rfl, rfl⟩
  | some n =>
    by_cases hcommit : wps.peerHash2 = commitment2 c wps.toSecrets n
    · simp only [if_pos hcommit]
      obtain ⟨hsecrets, haddr, hreg⟩ := processApSettingsR_keeps env ctx
        { wps with pinRevealed := false } eattr
      split
      · exact .inr ⟨plain, eattr, n, hstate, hauth, hopen, hn, hcommit.symm, rfl, hreg,
          hsecrets, haddr⟩
      · exact .inl ⟨rfl, hreg⟩
    · simp only [if_neg hcommit]
      exact .inl ⟨rfl, rfl⟩

def RegistrarStep (c : Crypto) (e : Entry) (wps : WpsData) : Prop :=
  wps.registrar = true ∧ Registrar.Transition c e wps

theorem RegistrarStep.saved {e : Entry} (wps : WpsData) (last : Option Octets)
    (h : RegistrarStep c e wps) : RegistrarStep c e { wps with lastMsg := last } := by
  obtain ⟨hreg, h⟩ := h
  refine ⟨hreg, ?_⟩
  cases h with
  | stay hstate h => exact .stay hstate h
  | ended hstate => exact .ended hstate
  | m2 hstate hkeyed hpass => exact .m2 hstate hkeyed hpass
  | m3 hbefore hstate h hbase => exact .m3 hbefore hstate h hbase
  | m4 hbefore hstate h hpsk hpsk2 => exact .m4 hbefore hstate h hpsk hpsk2
  | m5 hstate h hsame => exact .m5 hstate h hsame
  | m6 hbefore hstate hsame => exact .m6 hbefore hstate hsame
  | m7 hstate h hsame => exact .m7 hstate h hsame

theorem getDevPassword_true (h : (Registrar.getDevPassword env wps).2.1 = true) :
    (Registrar.getDevPassword env wps).1.devPassword.isSome = true := by
  unfold Registrar.getDevPassword at h ⊢
  dsimp only at h ⊢
  split at h
  · cases h
  split at h
  · cases h
  · rename_i halloc
    simp [halloc]

theorem getDevPassword_keeps :
    (Registrar.getDevPassword env wps).1.state = wps.state ∧
      (Registrar.getDevPassword env wps).1.registrar = wps.registrar := by
  unfold Registrar.getDevPassword
  dsimp only
  split
  · exact ⟨rfl, rfl⟩
  · split <;> exact ⟨rfl, rfl⟩

theorem buildM2_cases (c : Crypto) (env : Env) (ctx : Context) (hreg : wps.registrar = true) :
    ((Registrar.buildM2 c env ctx wps).1.state = wps.state ∧
      (Registrar.buildM2 c env ctx wps).1.registrar = true) ∨
    ((Registrar.buildM2 c env ctx wps).1.state = .recvM3 ∧
      (Registrar.buildM2 c env ctx wps).1.registrar = true ∧
      (Registrar.buildM2 c env ctx wps).1.devPassword = wps.devPassword ∧
      ∀ e : Entry, e.2.env = env → Keyed c [e] (Registrar.buildM2 c env ctx wps).1) := by
  unfold Registrar.buildM2
  split
  · exact .inl ⟨rfl, hreg⟩
  rename_i nonce _
  split
  · exact .inl ⟨rfl, hreg⟩
  unfold buildPublicKey
  cases hdh : env.dh with
  | none => exact .inl ⟨rfl, hreg⟩
  | some pair =>
    obtain ⟨priv, pub⟩ := pair
    simp only [hreg, if_true]
    split
    · rename_i wps' hkeys
      rw [deriveKeys_false hkeys]
      exact .inl ⟨rfl, rfl⟩
    rename_i wps' hkeys
    obtain ⟨priv', peer, shared, keys, hpriv, hpeer, hshared, hsession, rfl⟩ :=
      deriveKeys_true hkeys
    split
    · exact .inl ⟨rfl, rfl⟩
    refine .inr ⟨rfl, rfl, rfl, fun e henv => ?_⟩
    obtain rfl : priv = priv' := Option.some.inj hpriv
    exact ⟨priv, pub, peer, shared, ⟨_, List.mem_singleton_self _, henv ▸ hdh⟩, rfl,
      by simpa [peerPubkey] using hpeer, hshared, hsession⟩

theorem buildM2d_registrar : (Registrar.buildM2d env ctx wps).1.registrar = wps.registrar := by
  unfold Registrar.buildM2d
  split <;> rfl

theorem buildM2d_untracked (h : wps.state = .sendM2 ∨ wps.state = .sendM2d) :
    Registrar.tracked (Registrar.buildM2d env ctx wps).1.state = false := by
  unfold Registrar.buildM2d
  split
  · rcases h with h | h <;> simp [h, Registrar.tracked]
  · rfl

theorem buildM4_cases (c : Crypto) (env : Env) (ctx : Context) (wps : WpsData) :
    ((Registrar.buildM4 c env ctx wps).1.state = wps.state ∨
      (Registrar.buildM4 c env ctx wps).1.state = .recvM5) ∧
    (Registrar.buildM4 c env ctx wps).1.registrar = wps.registrar ∧
    (Registrar.buildM4 c env ctx wps).1.toSecrets =
      (derivePsk c wps (wps.devPassword.getD [])).toSecrets ∧
    (Registrar.buildM4 c env ctx wps).1.macAddrE = wps.macAddrE := by
  unfold Registrar.buildM4
  dsimp only
  split
  · exact ⟨.inl rfl, rfl, rfl, rfl⟩
  split
  · exact ⟨.inl rfl, rfl, rfl, rfl⟩
  split
  · exact ⟨.inl rfl, rfl, rfl, rfl⟩
  · exact ⟨.inr rfl, rfl, rfl, rfl⟩

theorem buildM6_cases (c : Crypto) (env : Env) (ctx : Context) (wps : WpsData) :
    ((Registrar.buildM6 c env ctx wps).1.state = wps.state ∨
      (Registrar.buildM6 c env ctx wps).1.state = .recvM7) ∧
    (Registrar.buildM6 c env ctx wps).1.registrar = wps.registrar ∧
    (Registrar.buildM6 c env ctx wps).1.toSecrets = wps.toSecrets ∧
    (Registrar.buildM6 c env ctx wps).1.macAddrE = wps.macAddrE := by
  unfold Registrar.buildM6
  split
  · exact ⟨.inl rfl, rfl, rfl, rfl⟩
  split
  · exact ⟨.inl rfl, rfl, rfl, rfl⟩
  · exact ⟨.inr rfl, rfl, rfl, rfl⟩

theorem makeCred_keeps :
    (Registrar.makeCred env ctx wps).1.state = wps.state ∧
      (Registrar.makeCred env ctx wps).1.registrar = wps.registrar ∧
      (Registrar.makeCred env ctx wps).1.toSecrets = wps.toSecrets ∧
      (Registrar.makeCred env ctx wps).1.macAddrE = wps.macAddrE := by
  unfold Registrar.makeCred
  dsimp only
  split
  · exact ⟨rfl, rfl, rfl, rfl⟩
  split
  · exact ⟨rfl, rfl, rfl, rfl⟩
  · split <;> exact ⟨rfl, rfl, rfl, rfl⟩

theorem m8Settings_keeps :
    (Registrar.m8Settings env ctx wps).1.state = wps.state ∧
      (Registrar.m8Settings env ctx wps).1.registrar = wps.registrar ∧
      (Registrar.m8Settings env ctx wps).1.toSecrets = wps.toSecrets ∧
      (Registrar.m8Settings env ctx wps).1.macAddrE = wps.macAddrE := by
  have hmake : (Registrar.makeCred env ctx wps).1.state = wps.state ∧
      (Registrar.makeCred env ctx wps).1.registrar = wps.registrar ∧
      (Registrar.makeCred env ctx wps).1.toSecrets = wps.toSecrets ∧
      (Registrar.makeCred env ctx wps).1.macAddrE = wps.macAddrE := makeCred_keeps
  unfold Registrar.m8Settings
  split
  · unfold Registrar.buildCred
    dsimp only
    split
    · exact ⟨rfl, rfl, rfl, rfl⟩
    cases wps.useCred with
    | some cred =>
      dsimp only
      split <;> exact ⟨rfl, rfl, rfl, rfl⟩
    | none =>
      dsimp only
      split
      · rename_i heq
        rw [heq] at hmake
        exact hmake
      · rename_i heq
        rw [heq] at hmake
        split <;> exact hmake
  · exact ⟨rfl, rfl, rfl, rfl⟩

theorem buildM8_cases (c : Crypto) (env : Env) (ctx : Context) (wps : WpsData) :
    ((Registrar.buildM8 c env ctx wps).1.state = .recvDone ∨
      ((Registrar.buildM8 c env ctx wps).1.state = wps.state ∧
        (Registrar.buildM8 c env ctx wps).1.toSecrets = wps.toSecrets ∧
        (Registrar.buildM8 c env ctx wps).1.macAddrE = wps.macAddrE)) ∧
    (Registrar.buildM8 c env ctx wps).1.registrar = wps.registrar := by
  have hkeeps : (Registrar.m8Settings env ctx wps).1.state = wps.state ∧
      (Registrar.m8Settings env ctx wps).1.registrar = wps.registrar ∧
      (Registrar.m8Settings env ctx wps).1.toSecrets = wps.toSecrets ∧
      (Registrar.m8Settings env ctx wps).1.macAddrE = wps.macAddrE := m8Settings_keeps
  unfold Registrar.buildM8
  split
  · exact ⟨.inr ⟨rfl, rfl, rfl⟩, rfl⟩
  split
  · rename_i heq
    rw [heq] at hkeeps
    exact ⟨.inr ⟨hkeeps.1, hkeeps.2.2⟩, hkeeps.2.1⟩
  rename_i heq
  rw [heq] at hkeeps
  split
  · exact ⟨.inr ⟨hkeeps.1, hkeeps.2.2⟩, hkeeps.2.1⟩
  · exact ⟨.inl rfl, hkeeps.2.1⟩

theorem registrar_answerM1 {op : Op} (hreg : wps.registrar = true) (hstate : wps.state = .sendM2) :
    RegistrarStep c (wps, ⟨env, ctx, op⟩) (Registrar.answerM1 c env ctx wps).1 := by
  obtain ⟨hps, hpr⟩ : (Registrar.getDevPassword env wps).1.state = wps.state ∧
    (Registrar.getDevPassword env wps).1.registrar = wps.registrar := getDevPassword_keeps
  have hpr' := hpr.trans hreg
  unfold Registrar.answerM1
  apply saveMsg_rule RegistrarStep.saved
  split
  · rename_i hpass
    have hsome := getDevPassword_true hpass
    obtain ⟨h, hr⟩ | ⟨h, hr, hpw, hkeyed⟩ := buildM2_cases c env ctx hpr'
    · refine ⟨hr, .ended ?_⟩
      rw [h, hps, hstate]
      rfl
    · exact ⟨hr, .m2 h (hkeyed _ rfl) (hpw ▸ hsome)⟩
  · refine ⟨?_, .ended (buildM2d_untracked (.inl (hps.trans hstate)))⟩
    rw [buildM2d_registrar, hpr']

theorem registrar_getMsg {op : Op} (hreg : wps.registrar = true) :
    RegistrarStep c (wps, ⟨env, ctx, op⟩) (Registrar.getMsg c env ctx wps).1 := by
  have hstay : RegistrarStep c (wps, ⟨env, ctx, op⟩) wps := ⟨hreg, .stay rfl ⟨rfl, rfl⟩⟩
  unfold Registrar.getMsg
  split
  · rename_i hstate
    exact registrar_answerM1 hreg hstate
  · rename_i hstate
    apply saveMsg_rule RegistrarStep.saved
    refine ⟨?_, .ended (buildM2d_untracked (.inr hstate))⟩
    rw [buildM2d_registrar, hreg]
  · rename_i hstate
    apply saveMsg_rule RegistrarStep.saved
    obtain ⟨h, hr, hsecrets, haddr⟩ := buildM4_cases c env ctx wps
    rw [hstate] at h
    refine ⟨hr.trans hreg, .m4 hstate h ⟨?_, ?_, ?_⟩ ?_ ?_⟩
    · simp [base, hsecrets, haddr, derivePsk]
    · simp [hsecrets, derivePsk]
    · simp [hsecrets, derivePsk]
    · simp [hsecrets, derivePsk]
    · simp [hsecrets, derivePsk]
  · rename_i hstate
    apply saveMsg_rule RegistrarStep.saved
    obtain ⟨h, hr, hsecrets, haddr⟩ := buildM6_cases c env ctx wps
    rcases h with h | h
    · exact ⟨hr.trans hreg, .stay h ⟨hsecrets.symm, haddr.symm⟩⟩
    · exact ⟨hr.trans hreg, .m6 hstate h ⟨hsecrets.symm, haddr.symm⟩⟩
  · rename_i hstate
    apply saveMsg_rule RegistrarStep.saved
    obtain ⟨h, hr⟩ := buildM8_cases c env ctx wps
    rcases h with h | ⟨h, hsecrets, haddr⟩
    · exact ⟨hr.trans hreg, .ended (by rw [h]; rfl)⟩
    · exact ⟨hr.trans hreg, .stay h ⟨hsecrets.symm, haddr.symm⟩⟩
  · exact hstay
  · exact hstay
  · exact hstay

-- What `wps_process_wsc_done` and `wps_process_wsc_nack` leave is not tracked.
theorem finish_keeps : (Registrar.finish ctx wps).1.state = wps.state ∧
    (Registrar.finish ctx wps).1.registrar = wps.registrar := by
  have hmove : (Registrar.moveToConfigured ctx wps).1.state = wps.state ∧
      (Registrar.moveToConfigured ctx wps).1.registrar = wps.registrar := by
    unfold Registrar.moveToConfigured
    split
    · exact ⟨rfl, rfl⟩
    · split <;> exact ⟨rfl, rfl⟩
  have hown : ∀ w, (Registrar.ownCred ctx w).1.state = w.state ∧
      (Registrar.ownCred ctx w).1.registrar = w.registrar := by
    intro w
    unfold Registrar.ownCred
    split <;> exact ⟨rfl, rfl⟩
  exact ⟨(hown _).1.trans hmove.1, (hown _).2.trans hmove.2⟩

theorem endDone_untracked (hreg : wps.registrar = true) :
    (Registrar.endDone ctx wps msg).1.registrar = true ∧
      Registrar.tracked (Registrar.endDone ctx wps msg).1.state = false := by
  unfold Registrar.endDone Registrar.processWscDone
  by_cases hstate : wps.state = .recvDone
  · cases Enrollee.acceptControl wps msg wscDone with
    | none => simp [hstate, refuse, hreg, Registrar.tracked]
    | some attr =>
      obtain ⟨hs, hr⟩ : (Registrar.finish ctx wps).1.state = wps.state ∧
        (Registrar.finish ctx wps).1.registrar = wps.registrar := finish_keeps
      simp [hstate, hs, hr, hreg, Registrar.tracked]
  · simp [hstate, refuse, hreg, Registrar.tracked]

-- `wps_process_m1` leaves a state before M2.
theorem processM1_keeps :
    (Registrar.processM1 env ctx wps attr).1.registrar = wps.registrar ∧
      ((Registrar.processM1 env ctx wps attr).1 = wps ∨
        Registrar.tracked (Registrar.processM1 env ctx wps attr).1.state = false) := by
  have hs : (Registrar.readM1 env ctx wps attr).1.state = wps.state := readM1_state
  have hr : (Registrar.readM1 env ctx wps attr).1.registrar = wps.registrar := readM1_registrar
  unfold Registrar.processM1
  split
  · exact ⟨rfl, .inl rfl⟩
  rename_i hstate
  split
  · rename_i heq
    rw [heq] at hs hr
    refine ⟨hr, .inr ?_⟩
    rw [hs, not_not.mp hstate]
    rfl
  · rename_i heq
    rw [heq] at hs hr
    split
    · exact ⟨hr, .inr rfl⟩
    split
    · exact ⟨hr, .inr rfl⟩
    · exact ⟨hr, .inr rfl⟩

theorem registrar_dispatch {opCode : OpCode} {type : BitVec 8} (hreg : wps.registrar = true)
    (hparse : parseMsg msg = some attr) (htype : attr.msgType = some type) :
    RegistrarStep c (wps, ⟨env, ctx, .processMsg opCode msg⟩)
      (Registrar.dispatch c env ctx wps msg attr type).1 := by
  have hrecv : ∀ t, type = t →
      Receives (wps, ⟨env, ctx, .processMsg opCode msg⟩) t msg attr := by
    rintro t rfl
    exact ⟨opCode, rfl, hparse, htype⟩
  have hnack : ∀ w : WpsData, w.state = .sendWscNack → w.registrar = wps.registrar →
      RegistrarStep c (wps, ⟨env, ctx, .processMsg opCode msg⟩) w := by
    intro w hw hr
    exact ⟨hr.trans hreg, .ended (by rw [hw]; rfl)⟩
  unfold Registrar.dispatch
  split
  · obtain ⟨hr, h | h⟩ : (Registrar.processM1 env ctx wps attr).1.registrar = wps.registrar ∧
        ((Registrar.processM1 env ctx wps attr).1 = wps ∨
          Registrar.tracked (Registrar.processM1 env ctx wps attr).1.state = false) := processM1_keeps
    · rw [h]
      exact ⟨hreg, .stay rfl ⟨rfl, rfl⟩⟩
    · exact ⟨hr.trans hreg, .ended h⟩
  · split
    · rename_i hm3
      obtain ⟨h, hr⟩ | ⟨h1, h2, hstate, hnonce, hauth, hh1, hh2, heq⟩ :=
        processM3_cases c ctx wps msg attr
      · exact hnack _ h hr
      dsimp only
      rw [heq]
      exact ⟨hreg, .m3 hstate rfl ⟨msg, attr, hrecv _ hm3, hstate, hnonce, hauth, hh1, hh2⟩ rfl⟩
    · split
      · rename_i hm5
        obtain ⟨h, hr⟩ | ⟨plain, eattr, n, hstate, hauth, hopen, hn, hcommit, heq⟩ :=
          processM5_cases c env ctx wps msg attr
        · exact hnack _ h hr
        obtain ⟨hdecrypt, hplain, hkwa⟩ := openSettings_eq_some hopen
        dsimp only
        rw [heq]
        exact ⟨hreg, .m5 rfl ⟨hstate, msg, attr, plain, eattr, n, hrecv _ hm5, hauth, hdecrypt,
          hplain, hkwa, hn, hcommit⟩ ⟨rfl, rfl⟩⟩
      · split
        · rename_i hm7
          obtain ⟨h, hr⟩ | ⟨plain, eattr, n, hstate, hauth, hopen, hn, hcommit, hs, hr, hsecrets,
            haddr⟩ := processM7_cases c env ctx wps msg attr
          · exact hnack _ h hr
          obtain ⟨hdecrypt, hplain, hkwa⟩ := openSettings_eq_some hopen
          exact ⟨hr.trans hreg, .m7 hs ⟨hstate, msg, attr, plain, eattr, n, hrecv _ hm7, hauth,
            hdecrypt, hplain, hkwa, hn, hcommit⟩ ⟨hsecrets.symm, haddr.symm⟩⟩
        · exact ⟨hreg, .stay rfl ⟨rfl, rfl⟩⟩

theorem registrar_processMsg {opCode : OpCode} (hreg : wps.registrar = true) :
    RegistrarStep c (wps, ⟨env, ctx, .processMsg opCode msg⟩)
      (Registrar.processMsg c env ctx wps opCode msg).1 := by
  have hstay : RegistrarStep c (wps, ⟨env, ctx, .processMsg opCode msg⟩) wps :=
    ⟨hreg, .stay rfl ⟨rfl, rfl⟩⟩
  have hdone : ∀ w : WpsData, w.registrar = true →
      RegistrarStep c (wps, ⟨env, ctx, .processMsg opCode msg⟩) (Registrar.endDone ctx w msg).1 := by
    intro w hw
    obtain ⟨hr, h⟩ : (Registrar.endDone ctx w msg).1.registrar = true ∧
      Registrar.tracked (Registrar.endDone ctx w msg).1.state = false := endDone_untracked hw
    exact ⟨hr, .ended h⟩
  unfold Registrar.processMsg
  split
  · unfold Registrar.processWscMsg
    split
    · exact hstay
    rename_i attr hparse
    split
    · exact ⟨hreg, .ended rfl⟩
    rename_i type htype
    split
    · exact hstay
    have hstep : RegistrarStep c (wps, ⟨env, ctx, .processMsg .msg msg⟩)
        (Registrar.dispatch c env ctx wps msg attr type).1 := registrar_dispatch hreg hparse htype
    split
    · rename_i heq
      rw [heq] at hstep
      exact hstep.saved _ _
    · exact hstep
  · unfold Registrar.processWscAck
    split <;> exact hstay
  · refine hdone _ ?_
    unfold Registrar.processWscNack
    split <;> exact hreg
  · exact hdone wps hreg
  · exact hstay

theorem registrar_step {step : Step} (hreg : wps.registrar = true) :
    RegistrarStep c (wps, step) (stepData c wps step) := by
  obtain ⟨env, ctx, op⟩ := step
  unfold stepData
  cases op with
  | processMsg opCode msg =>
    simp only [processMsg, hreg, if_true]
    exact registrar_processMsg hreg
  | getMsg =>
    simp only [getMsg, hreg, if_true]
    exact registrar_getMsg hreg

end Registrar

end WpaSupplicant.Wps

import WpaSupplicant.Wps.Proof

namespace WpaSupplicant.Wps

open Enrollee (refuse openSettings saveMsg)

section Transition

variable (c : Crypto)

def Enrollee.tracked : State → Bool
  | .recvM2 | .receivedM2d | .sendM3 | .recvM4 | .sendM5 | .recvM6 | .sendM7 => true
  | _ => false

def Enrollee.waits (state : State) : Prop := state = .recvM2 ∨ state = .receivedM2d

inductive Enrollee.Transition (e : Entry) (wps : WpsData) : Prop where
  | stay (hstate : wps.state = e.1.state) (h : SameSecrets wps e) (hpriv : wps.dhPrivkey = e.1.dhPrivkey)
  | ended (hstate : Enrollee.tracked wps.state = false)
  | m1 (hstate : wps.state = .recvM2) (priv pub : Octets) (hpriv : wps.dhPrivkey = some priv)
      (hpub : wps.dhPubkeyE = some pub) (hdh : e.2.env.dh = some (priv, pub))
  | m2d (hbefore : Enrollee.waits e.1.state) (hstate : Enrollee.waits wps.state)
      (h : SameSecrets wps e) (hpriv : wps.dhPrivkey = e.1.dhPrivkey)
  | m2 (hbefore : e.1.state = .recvM2) (hstate : wps.state = .sendM3) (priv peer shared : Octets)
      (hpriv : e.1.dhPrivkey = some priv) (hpub : wps.dhPubkeyE = e.1.dhPubkeyE)
      (hpeer : wps.dhPubkeyR = some peer) (hshared : c.dhShared priv peer = some shared)
      (hkeys : sessionKeys c shared wps.nonceE wps.macAddrE wps.nonceR = (wps.authkey, wps.keywrapkey))
  | m3 (hbefore : e.1.state = .sendM3) (hstate : wps.state = .sendM3 ∨ wps.state = .recvM4)
      (hbase : base e.1 = base wps) (hpsk : PskDerived c wps)
  | m4 (hstate : wps.state = .sendM5) (h : OpensM4 c e wps.peerHash1 wps.peerHash2)
      (hbase : base e.1 = base wps) (hpsk1 : e.1.psk1 = wps.psk1) (hpsk2 : e.1.psk2 = wps.psk2)
  | m5 (hbefore : e.1.state = .sendM5) (hstate : wps.state = .recvM6) (hsame : SameSecrets wps e)
  | m6 (hstate : wps.state = .sendM7) (h : OpensM6 c e) (hsame : SameSecrets wps e)

def EnrolleeStep (e : Entry) (wps : WpsData) : Prop :=
  wps.registrar = false ∧ Enrollee.Transition c e wps

end Transition

section Enrollee

variable {c : Crypto} {env : Env} {ctx : Context} {wps : WpsData} {msg : Octets} {attr : ParseAttr}
  {op : Op}

theorem EnrolleeStep.saved {e : Entry} (wps : WpsData) (last : Option Octets)
    (h : EnrolleeStep c e wps) : EnrolleeStep c e { wps with lastMsg := last } := by
  obtain ⟨hreg, h⟩ := h
  refine ⟨hreg, ?_⟩
  cases h with
  | stay hstate h hpriv => exact .stay hstate h hpriv
  | ended hstate => exact .ended hstate
  | m1 hstate priv pub hpriv hpub hdh => exact .m1 hstate priv pub hpriv hpub hdh
  | m2d hbefore hstate h hpriv => exact .m2d hbefore hstate h hpriv
  | m2 hbefore hstate priv peer shared hpriv hpub hpeer hshared hkeys =>
    exact .m2 hbefore hstate priv peer shared hpriv hpub hpeer hshared hkeys
  | m3 hbefore hstate hbase hpsk => exact .m3 hbefore hstate hbase hpsk
  | m4 hstate h hbase hpsk1 hpsk2 => exact .m4 hstate h hbase hpsk1 hpsk2
  | m5 hbefore hstate hsame => exact .m5 hbefore hstate hsame
  | m6 hstate h hsame => exact .m6 hstate h hsame

theorem enrollee_buildM1 (hreg : wps.registrar = false) (hstate : wps.state = .sendM1) :
    EnrolleeStep c (wps, ⟨env, ctx, op⟩) (Enrollee.buildM1 env ctx wps).1 := by
  have hended : ∀ w : WpsData, w.registrar = false → w.state = .sendM1 →
      EnrolleeStep c (wps, ⟨env, ctx, op⟩) w := by
    intro w hr hw
    exact ⟨hr, .ended (by rw [hw]; rfl)⟩
  unfold Enrollee.buildM1
  split
  · exact hended _ hreg hstate
  dsimp only
  split
  · exact hended _ hreg hstate
  unfold buildPublicKey
  cases hdh : env.dh with
  | none => exact hended _ hreg hstate
  | some pair =>
    simp only [hreg, Bool.false_eq_true, if_false]
    exact ⟨rfl, .m1 rfl pair.1 pair.2 rfl rfl hdh⟩

theorem enrollee_buildM3 (hreg : wps.registrar = false) (hstate : wps.state = .sendM3) :
    EnrolleeStep c (wps, ⟨env, ctx, op⟩) (Enrollee.buildM3 c env ctx wps).1 := by
  unfold Enrollee.buildM3
  split
  · exact ⟨hreg, .stay rfl ⟨rfl, rfl⟩ rfl⟩
  rename_i passwd hpass
  have hpsk : PskDerived c (derivePsk c wps passwd) := ⟨passwd, hpass, rfl, rfl⟩
  dsimp only
  split
  · exact ⟨hreg, .m3 hstate (.inl hstate) rfl hpsk⟩
  split
  · exact ⟨hreg, .m3 hstate (.inl hstate) rfl hpsk⟩
  split
  · exact ⟨hreg, .m3 hstate (.inl hstate) rfl hpsk⟩
  · exact ⟨hreg, .m3 hstate (.inr rfl) rfl hpsk⟩

theorem enrollee_buildEncrypted {type : BitVec 8} {plain : Octets} {next : State}
    (hreg : wps.registrar = false)
    (hnext : Enrollee.tracked next = false ∨ (wps.state = .sendM5 ∧ next = .recvM6)) :
    EnrolleeStep c (wps, ⟨env, ctx, op⟩)
      (Enrollee.buildEncrypted c env ctx wps type plain next).1 := by
  unfold Enrollee.buildEncrypted
  split
  · exact ⟨hreg, .stay rfl ⟨rfl, rfl⟩ rfl⟩
  split
  · exact ⟨hreg, .stay rfl ⟨rfl, rfl⟩ rfl⟩
  rcases hnext with h | ⟨h, rfl⟩
  · exact ⟨hreg, .ended h⟩
  · exact ⟨hreg, .m5 h rfl ⟨rfl, rfl⟩⟩

theorem enrollee_getMsg (hreg : wps.registrar = false) :
    EnrolleeStep c (wps, ⟨env, ctx, op⟩) (Enrollee.getMsg c env ctx wps).1 := by
  have hstay : EnrolleeStep c (wps, ⟨env, ctx, op⟩) wps := ⟨hreg, .stay rfl ⟨rfl, rfl⟩ rfl⟩
  unfold Enrollee.getMsg
  split
  · rename_i hstate
    exact saveMsg_rule EnrolleeStep.saved (enrollee_buildM1 hreg hstate)
  · rename_i hstate
    exact saveMsg_rule EnrolleeStep.saved (enrollee_buildM3 hreg hstate)
  · rename_i hstate
    exact saveMsg_rule EnrolleeStep.saved (enrollee_buildEncrypted hreg (.inr ⟨hstate, rfl⟩))
  · exact saveMsg_rule EnrolleeStep.saved (enrollee_buildEncrypted hreg (.inl rfl))
  · rename_i hstate
    split
    · exact hstay
    split
    · exact hstay
    · exact ⟨hreg, .m2d (.inr hstate) (.inl rfl) ⟨rfl, rfl⟩ rfl⟩
  · exact hstay
  · rename_i hstate
    unfold Enrollee.buildWscDone
    split
    · exact hstay
    · dsimp only
      split <;> exact ⟨hreg, .ended rfl⟩
  · exact hstay

theorem processPubkey_true {pk : Option Octets} (h : (Enrollee.processPubkey c env wps pk).2 = true)
    (hreg : wps.registrar = false) :
    ∃ priv peer shared keys, wps.dhPrivkey = some priv ∧ c.dhShared priv peer = some shared ∧
      sessionKeys c shared wps.nonceE wps.macAddrE wps.nonceR = keys ∧
      (Enrollee.processPubkey c env wps pk).1 =
        { wps with dhPubkeyR := some peer, authkey := keys.1, keywrapkey := keys.2,
                   dhPrivkey := none } := by
  unfold Enrollee.processPubkey at h ⊢
  split at h
  · cases h
  rename_i peer
  split at h
  · cases h
  rename_i hne
  split at h
  · cases h
  rename_i halloc
  simp only [hne, halloc, if_false, Bool.false_eq_true]
  have hderive : deriveKeys c { wps with dhPubkeyR := some peer } =
    ((deriveKeys c { wps with dhPubkeyR := some peer }).1, true) := Prod.ext rfl h
  obtain ⟨priv, peer', shared, keys, hpriv, hpeer, hshared, hkeys, heq⟩ :=
    deriveKeys_true hderive
  simp only [peerPubkey, hreg, Bool.false_eq_true, if_false, Option.some.injEq] at hpeer
  exact ⟨priv, peer, shared, keys, hpriv, hpeer ▸ hshared, hkeys, heq⟩

theorem processPubkey_registrar {pk : Option Octets} :
    (Enrollee.processPubkey c env wps pk).1.registrar = wps.registrar := by
  unfold Enrollee.processPubkey
  split
  · rfl
  split
  · rfl
  split
  · rfl
  unfold deriveKeys
  split
  · split <;> rfl
  · rfl

theorem refused {w : WpsData} (h : w.registrar = false) :
    EnrolleeStep c (wps, ⟨env, ctx, op⟩) (refuse w) :=
  ⟨h, .ended rfl⟩

theorem enrollee_processM2 (hreg : wps.registrar = false) :
    EnrolleeStep c (wps, ⟨env, ctx, op⟩) (Enrollee.processM2 c env ctx wps msg attr) := by
  unfold Enrollee.processM2
  split
  · exact refused hreg
  rename_i hstate
  split
  · exact refused hreg
  rename_i nonceR _
  dsimp only
  split
  · exact refused hreg
  split
  · exact refused hreg
  rename_i uuidR _
  split
  · exact refused hreg
  split
  · rename_i hok
    simp only [Bool.and_eq_true] at hok
    obtain ⟨priv, peer, shared, keys, hpriv, hshared, hkeys, heq⟩ :=
      processPubkey_true hok.1.1 hreg
    rw [heq]
    exact ⟨hreg, .m2 (not_not.mp hstate) rfl priv peer shared hpriv rfl rfl hshared hkeys⟩
  · exact refused ((processPubkey_registrar).trans hreg)

variable {opCode : OpCode}

-- M4 is refused, or it opens the first half.
theorem enrollee_processM4 (hreg : wps.registrar = false) (hparse : parseMsg msg = some attr)
    (htype : attr.msgType = some m4) :
    EnrolleeStep c (wps, ⟨env, ctx, .processMsg opCode msg⟩)
      (Enrollee.processM4 c env wps msg attr).1 := by
  have hrecv : Receives (wps, ⟨env, ctx, .processMsg opCode msg⟩) m4 msg attr :=
    ⟨opCode, rfl, hparse, htype⟩
  unfold Enrollee.processM4
  split
  · exact refused hreg
  rename_i hstate
  split
  · exact refused hreg
  rename_i hcheck
  simp only [not_or, not_not] at hcheck
  split
  · exact refused hreg
  rename_i h1 hh1
  dsimp only
  split
  · exact refused hreg
  rename_i h2 hh2
  split
  · exact refused hreg
  rename_i plain eattr hopen
  obtain ⟨hdecrypt, hplain, hkwa⟩ := openSettings_eq_some hopen
  unfold Enrollee.processRSnonce1
  split
  · exact refused hreg
  rename_i n hn
  by_cases hcommit : h1 = commitment1 c wps.toSecrets n
  · have hcommit' : h1 = commitment1 c { wps.toSecrets with
        peerHash1 := h1, peerHash2 := h2 } n := hcommit
    simp only [if_pos hcommit', if_true]
    exact ⟨hreg, .m4 rfl ⟨not_not.mp hstate, ⟨msg, attr, hrecv, hh1, hh2⟩, msg, attr, plain,
      eattr, n, hrecv, hcheck.2, hdecrypt, hplain, hkwa, hn, hcommit.symm⟩ rfl rfl rfl⟩
  · have hcommit' : ¬h1 = commitment1 c { wps.toSecrets with
        peerHash1 := h1, peerHash2 := h2 } n := hcommit
    simp only [if_neg hcommit']
    exact refused hreg

-- M6 is refused, or it opens the second half.
theorem enrollee_processM6 (hreg : wps.registrar = false) (hparse : parseMsg msg = some attr)
    (htype : attr.msgType = some m6) :
    EnrolleeStep c (wps, ⟨env, ctx, .processMsg opCode msg⟩)
      (Enrollee.processM6 c env ctx wps msg attr).1 := by
  unfold Enrollee.processM6
  split
  · exact refused hreg
  rename_i hstate
  split
  · exact refused hreg
  rename_i hcheck
  simp only [not_or, not_not] at hcheck
  split
  · exact refused hreg
  rename_i plain eattr hopen
  obtain ⟨hdecrypt, hplain, hkwa⟩ := openSettings_eq_some hopen
  unfold Enrollee.processRSnonce2
  cases hn : eattr.rSnonce2 with
  | none => exact refused hreg
  | some n =>
    by_cases hcommit : wps.peerHash2 = commitment2 c wps.toSecrets n
    · simp only [if_pos hcommit, if_true]
      exact ⟨hreg, .m6 rfl ⟨not_not.mp hstate, msg, attr, plain, eattr, n,
        ⟨opCode, rfl, hparse, htype⟩, hcheck.2, hdecrypt, hplain, hkwa, hn, hcommit.symm⟩
        ⟨rfl, rfl⟩⟩
    · simp only [if_neg hcommit]
      exact refused hreg

-- M8 leaves no state in which something is owed.
theorem processCredsLoop_registrar {creds : List Octets} {ok : Bool} :
    (Enrollee.processCredsLoop ctx creds ok wps).1.registrar = wps.registrar := by
  induction creds generalizing ok wps with
  | nil => rfl
  | cons cred rest ih =>
    have hcred : (Enrollee.processCredE ctx wps cred).1.registrar = wps.registrar := by
      unfold Enrollee.processCredE
      dsimp only
      split
      · rfl
      split
      · rfl
      · split <;> rfl
    unfold Enrollee.processCredsLoop
    split
    · rename_i heq
      rw [heq] at hcred
      exact hcred
    · rename_i heq
      rw [heq] at hcred
      exact ih.trans hcred

theorem processM8Settings_registrar :
    (Enrollee.processM8Settings ctx wps attr).1.registrar = wps.registrar := by
  have hcreds : (Enrollee.processCreds ctx wps attr.cred).1.registrar = wps.registrar := by
    unfold Enrollee.processCreds
    split
    · rfl
    · exact processCredsLoop_registrar
  unfold Enrollee.processM8Settings
  split
  · rename_i heq
    rw [heq] at hcreds
    exact hcreds
  rename_i heq
  rw [heq] at hcreds
  unfold Enrollee.processApSettingsE
  split
  · exact hcreds
  split
  · exact hcreds
  split
  · exact hcreds
  · split <;> exact hcreds

theorem enrollee_processM8 (hreg : wps.registrar = false) :
    EnrolleeStep c (wps, ⟨env, ctx, op⟩) (Enrollee.processM8 c env ctx wps msg attr).1 := by
  unfold Enrollee.processM8
  split
  · exact refused hreg
  split
  · exact refused hreg
  split
  · exact refused hreg
  split
  · exact refused hreg
  rename_i eattr _
  have hr : (Enrollee.processM8Settings ctx wps eattr).1.registrar = wps.registrar :=
    processM8Settings_registrar
  dsimp only
  split
  · exact ⟨hr.trans hreg, .ended rfl⟩
  · exact refused (hr.trans hreg)

theorem enrollee_dispatch_step {type : BitVec 8} {r : WpsData × List Event} (hreg : wps.registrar = false)
    (hparse : parseMsg msg = some attr) (htype : attr.msgType = some type)
    (h : Enrollee.dispatch c env ctx wps msg attr type = some r) :
    EnrolleeStep c (wps, ⟨env, ctx, .processMsg opCode msg⟩) r.1 := by
  unfold Enrollee.dispatch at h
  split at h
  · cases h
    exact enrollee_processM2 hreg
  split at h
  · cases h
    unfold Enrollee.processM2d
    split
    · exact ⟨hreg, .ended rfl⟩
    · rename_i hstate
      exact ⟨hreg, .m2d (.inl (not_not.mp hstate)) (.inr rfl) ⟨rfl, rfl⟩ rfl⟩
  · split at h
    · rename_i hm4
      cases h
      exact enrollee_processM4 hreg hparse (hm4 ▸ htype)
    split at h
    · rename_i hm6
      cases h
      exact enrollee_processM6 hreg hparse (hm6 ▸ htype)
    split at h
    · cases h
      exact enrollee_processM8 hreg
    · cases h

theorem enrollee_processMsg (hreg : wps.registrar = false) :
    EnrolleeStep c (wps, ⟨env, ctx, .processMsg opCode msg⟩)
      (Enrollee.processMsg c env ctx wps opCode msg).1 := by
  have hstay : EnrolleeStep c (wps, ⟨env, ctx, .processMsg opCode msg⟩) wps :=
    ⟨hreg, .stay rfl ⟨rfl, rfl⟩ rfl⟩
  have hmsg : EnrolleeStep c (wps, ⟨env, ctx, .processMsg opCode msg⟩)
      (Enrollee.processWscMsg c env ctx wps msg).1 := by
    unfold Enrollee.processWscMsg
    split
    · exact hstay
    rename_i attr hparse
    split
    · exact hstay
    split
    · exact ⟨hreg, .ended rfl⟩
    rename_i type htype
    split
    · exact hstay
    rename_i wps' events hdispatch
    have hstep : EnrolleeStep c (wps, ⟨env, ctx, .processMsg opCode msg⟩) wps' :=
      enrollee_dispatch_step hreg hparse htype hdispatch
    dsimp only
    split
    · exact hstep
    · exact hstep.saved _ _
  unfold Enrollee.processMsg
  split
  · exact hmsg
  · exact hmsg
  · unfold Enrollee.processWscAck
    split
    · exact hstay
    split
    · exact ⟨hreg, .ended rfl⟩
    · exact hstay
  · unfold Enrollee.processWscNack
    split
    · exact hstay
    · exact ⟨hreg, .ended rfl⟩
  · exact hstay

theorem enrollee_step {step : Step} (hreg : wps.registrar = false) :
    EnrolleeStep c (wps, step) (stepData c wps step) := by
  obtain ⟨env, ctx, op⟩ := step
  unfold stepData
  cases op with
  | processMsg opCode msg =>
    simp only [processMsg, hreg, Bool.false_eq_true, if_false]
    exact enrollee_processMsg hreg
  | getMsg =>
    simp only [getMsg, hreg, Bool.false_eq_true, if_false]
    exact enrollee_getMsg hreg

end Enrollee

end WpaSupplicant.Wps

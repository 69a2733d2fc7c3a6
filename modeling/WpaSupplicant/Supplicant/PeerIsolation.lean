import WpaSupplicant.Supplicant.Handover

namespace WpaSupplicant.Supplicant

open Lib.Octets KeyData

-- A frame from the address of a peer gives the driver a key of that peer at most, and only if
-- the frame's MIC was verified under the KCK of that key; the PTK of the AP stays.
def PeerIsolated (sm : Sm) (src : Addr) (data : Octets) (c : Ctx) : Prop :=
  (∀ kind alg addr idx setTx seq key, .setKey kind alg addr idx setTx seq key ∈ c.out →
    kind = .stk ∧ addr = some src ∧ ∃ p ∈ c.sm.peerkey, p.addr = src ∧ StkKey p key ∧
      ∃ f, received data = some f ∧ .micVerified p.stk.kck f ∈ c.out) ∧
  c.sm.ptk = sm.ptk

-- `peerkey_verify_eapol_key_mic` succeeds
def peerMicOk (cr : Crypto) (sm : Sm) (p : Peer) (f : EapolKey) : Bool :=
  let p := initiatorStk cr sm p f
  (p.tstkSet && micMatches cr p.tstk.kck f.keyInfo.ver f) ||
    (p.stkSet && micMatches cr p.stk.kck f.keyInfo.ver f)

-- The frame as the handlers see it; `none` if its key data can not be decrypted
def opened (cr : Crypto) (env : Env) (sm : Sm) (f : EapolKey) : Option EapolKey :=
  (rxDecrypt cr env f ⟨sm, 1, []⟩).2

def groupKey (cr : Crypto) (env : Env) (sm : Sm) (f : EapolKey) : Option GtkData :=
  if sm.conf.proto = .rsn then (wpaSupplicantProcess1of2Rsn env f ⟨sm, 0, []⟩).2
  else (wpaSupplicantProcess1of2Wpa cr f f.keyInfo.ver ⟨sm, 0, []⟩).2

-- STK message 4/4 without the MIC bit: `peerkey_rx_eapol_4way` tells it from the bits Ack and
-- Secure alone.
def UnsignedStk4 (f : EapolKey) : Prop :=
  f.keyInfo.mic = false ∧ f.keyInfo.keyType = true ∧ f.keyInfo.keyIndex = 0 ∧
    f.keyInfo.ack = false ∧ f.keyInfo.secure = true

-- Group message 1/2 under the STK: the group branch of `wpa_sm_rx_eapol` does not ask who sent
-- the frame.
def GroupFromPeer (cr : Crypto) (env : Env) (sm : Sm) (p : Peer) (f g : EapolKey) : Prop :=
  f.keyInfo.mic = true ∧ f.keyInfo.keyType = false ∧ f.keyInfo.smkMessage = false ∧
    peerMicOk cr sm p f = true ∧ (groupKey cr env sm g).isSome = true

def PeerDefect (cr : Crypto) (env : Env) (sm : Sm) (src : Addr) (p : Peer) (data : Octets) : Prop :=
  ∃ f, EapolKey.ofOctets? data = some f ∧ env.alloc 0 = true ∧ rxHeaderOk f = true ∧
    rxChecks sm src (rxFrame f) = true ∧
    (rxFrame f).keyDataLength.toNat ≤ (rxFrame f).keyData.length ∧
    ∃ g, opened cr env sm (rxFrame f) = some g ∧
      (UnsignedStk4 (rxFrame f) ∨ GroupFromPeer cr env sm p (rxFrame f) g)

section Group

variable (cr : Crypto) (env : Env) {f : EapolKey} {c : Ctx}

theorem groupKey_eq (f : EapolKey) (sm : Sm) (hconf : c.sm.conf = sm.conf) (hptk : c.sm.ptk = sm.ptk) :
    (if c.sm.conf.proto = .rsn then wpaSupplicantProcess1of2Rsn env f c
      else wpaSupplicantProcess1of2Wpa cr f f.keyInfo.ver c).2 = groupKey cr env sm f := by
  rw [groupKey, hconf]
  split
  · simp only [wpaSupplicantProcess1of2Rsn, wpaSupplicantGtkTxBitWorkaround, hconf]
    split
    · rfl
    split
    · rfl
    split
    · rfl
    · split <;> rfl
  · simp only [wpaSupplicantProcess1of2Wpa, wpaSupplicantGtkTxBitWorkaround, hconf, hptk]
    split
    · rfl
    split
    · rfl
    split
    · split <;> rfl
    split
    · split <;> rfl
    · rfl

-- Without a key in it, group message 1/2 gives the driver nothing.
theorem keyKinds_process1of2_of_none
    (h : (if c.ask.sm.conf.proto = .rsn then wpaSupplicantProcess1of2Rsn env f c.ask
      else wpaSupplicantProcess1of2Wpa cr f f.keyInfo.ver c.ask).2 = none) :
    keyKinds (wpaSupplicantProcess1of2 cr env f f.keyInfo.ver c).out = keyKinds c.out := by
  rw [wpaSupplicantProcess1of2]
  generalize hr : (if c.ask.sm.conf.proto = .rsn then wpaSupplicantProcess1of2Rsn env f c.ask
      else wpaSupplicantProcess1of2Wpa cr f f.keyInfo.ver c.ask) = r at h ⊢
  have h1 : keyKinds r.1.out = keyKinds c.out := by
    subst hr
    split at h
    · rename_i hrsn
      rw [if_pos hrsn]
      simp only [wpaSupplicantProcess1of2Rsn] at h ⊢
      split
      · rfl
      split
      · rfl
      split
      · rfl
      split
      · rfl
      · simp_all
    · rename_i hrsn
      rw [if_neg hrsn]
      simp only [wpaSupplicantProcess1of2Wpa]
      split
      · rfl
      split
      · rfl
      split
      · split
        · rfl
        · exact keyKinds_emit _ rfl
      split
      · split
        · rfl
        · exact keyKinds_emit _ rfl
      · rfl
  obtain ⟨c1, gd⟩ := r
  simp only at h
  subst h
  dsimp only
  rw [keyKinds_emit _ (by rfl : NoKey .deauthenticate),
    keyKinds_emit _ (by rfl : NoKey (.setState .groupHandshake)), h1]

theorem keyKinds_process1of2_of_some
    (h : (if c.ask.sm.conf.proto = .rsn then wpaSupplicantProcess1of2Rsn env f c.ask
      else wpaSupplicantProcess1of2Wpa cr f f.keyInfo.ver c.ask).2.isSome = true) :
    .gtk ∈ keyKinds (wpaSupplicantProcess1of2 cr env f f.keyInfo.ver c).out := by
  rw [wpaSupplicantProcess1of2]
  generalize (if c.ask.sm.conf.proto = .rsn then wpaSupplicantProcess1of2Rsn env f c.ask
      else wpaSupplicantProcess1of2Wpa cr f f.keyInfo.ver c.ask) = r at h ⊢
  obtain ⟨c1, gd⟩ := r
  cases gd with
  | none => simp at h
  | some gd =>
    have h1 : .gtk ∈ keyKinds (wpaSupplicantInstallGtk env gd f.keyRsc
        (c1.emit (.setState .groupHandshake))).1.out := by
      simp only [wpaSupplicantInstallGtk]
      split
      · simp [wpaSmSetKey, Ctx.emit, Ctx.ask, keyKinds]
      · simp [wpaSmSetKey, Ctx.emit, Ctx.ask, keyKinds]
    -- what comes behind the key keeps it in the list
    have hkeep {r : Ctx × Bool} {g : Ctx → Ctx × Bool} (hr : .gtk ∈ keyKinds r.1.out)
        (hg : .gtk ∈ keyKinds (g r.1).1.out) : .gtk ∈ keyKinds (Lib.Effect.andThen r g).1.out := by
      rw [Lib.Effect.andThen]
      split
      · exact hg
      · exact hr
    have hdeauth {r : Ctx × Bool} (hr : .gtk ∈ keyKinds r.1.out) :
        .gtk ∈ keyKinds (orDeauthenticate r).out := by
      rw [orDeauthenticate]
      split
      · exact hr
      · rw [keyKinds_emit _ (by rfl : NoKey .deauthenticate)]
        exact hr
    refine hdeauth (hkeep h1 (hkeep ?_ ?_))
    · rw [wpaSupplicantSend2of2, keyKinds_allocAndSend]
      exact h1
    · split
      · dsimp only
        rw [keyKinds_emit, keyKinds_emit, wpaSupplicantSend2of2, keyKinds_allocAndSend]
        · exact h1
        · rfl
        · rfl
      · rw [keyKinds_wpaSupplicantKeyNegComplete, wpaSupplicantSend2of2, keyKinds_allocAndSend]
        exact h1

end Group

section Frame

variable (cr : Crypto) (env : Env) {sm : Sm} {src : Addr} {f : EapolKey} {k : ℕ} {p : Peer}

theorem opened_eq (sm : Sm) (c : Ctx) (f : EapolKey) (hconf : c.sm.conf = sm.conf) (hptk : c.sm.ptk = sm.ptk)
    (hset : c.sm.ptkSet = sm.ptkSet) (htick : c.tick = 1) :
    (rxDecrypt cr env f c).2 = opened cr env sm f := by
  simp only [opened, rxDecrypt, wpaSupplicantDecryptKeyData, hconf, hptk, hset, htick]
  split
  · split
    · rfl
    split
    · rfl
    split
    · split
      · rfl
      split
      · rfl
      · split <;> rfl
    · rfl
  · rfl

theorem peerkeyVerifyEapolKeyMic_snd (c : Ctx) :
    (peerkeyVerifyEapolKeyMic cr k p f f.keyInfo.ver c).2 = peerMicOk cr c.sm p f := by
  simp only [peerkeyVerifyEapolKeyMic, peerMicOk]
  split
  · rename_i h
    simp [h]
  rename_i h
  split
  · rename_i h'
    simp [h']
  rename_i h'
  simp only [Bool.not_eq_true] at h h'
  simp [h, h']

variable {data : Octets}

theorem peerIsolated_of_noKey {c : Ctx} (h : keyKinds c.out = []) (hptk : c.sm.ptk = sm.ptk) :
    PeerIsolated sm src data c := by
  refine ⟨fun kind alg addr idx setTx seq key hset => ?_, hptk⟩
  have hk : kind ∈ keyKinds c.out := List.mem_filterMap.mpr ⟨_, hset, rfl⟩
  rw [h] at hk
  simp at hk

theorem peerIsolated_of_stkOut {c : Ctx} {l : List Out} {q : Peer} (hdata : received data = some f)
    (hout : c.out = .micVerified p.stk.kck f :: l) (hl : ∀ o ∈ l, (∃ kek, o = .useKek kek) ∨ StkOut p o)
    (haddr : p.addr = src) (hq : q ∈ c.sm.peerkey) (hqaddr : q.addr = p.addr) (hstk : q.stk = p.stk)
    (hcipher : q.cipher = p.cipher) (hptk : c.sm.ptk = sm.ptk) : PeerIsolated sm src data c := by
  refine ⟨fun kind alg addr idx setTx seq key hset => ?_, hptk⟩
  rw [hout, List.mem_cons] at hset
  rcases hset with hset | hset
  · simp at hset
  rcases hl _ hset with ⟨kek, h⟩ | ⟨hkind, hkaddr, hkey⟩
  · simp at h
  refine ⟨hkind, by rw [hkaddr, haddr], q, hq, by rw [hqaddr, haddr], ?_, f, hdata, ?_⟩
  · rw [StkKey, stkKey, hcipher, hstk]
    exact hkey
  · rw [hstk, hout]
    simp

theorem peerIsolated_unsigned {c : Ctx} {g : EapolKey} {l : List Out} (hsm : c.sm = sm) (hout : c.out = l)
    (hl : ∀ o ∈ l, ∃ kek, o = .useKek kek) (hk : rxPeer sm src = some k) (hp : sm.peerkey[k]? = some p)
    (hg : g.keyInfo = f.keyInfo) (hmic : f.keyInfo.mic = false) :
    PeerIsolated sm src data (rxDispatch cr env src g c).1 ↔ ¬ UnsignedStk4 f := by
  subst hsm
  have hkinds : keyKinds c.out = [] := by
    rw [hout]
    refine keyKinds_of_noKey fun o ho => ?_
    obtain ⟨kek, rfl⟩ := hl o ho
    rfl
  have hptk := (rxDispatch_kept_of_some cr env g hk hp).ptk
  have hno {c' : Ctx} (h : Does KeptKeys PeerOut c c') : keyKinds c'.out = [] := by
    rw [(h.mono id PeerOut.noKey).keyKinds, hkinds]
  have h0 : Does KeptKeys PeerOut c c := .refl (.refl c.sm)
  rw [UnsignedStk4]
  rw [rxDispatch_of_some cr env g hk hp] at hptk ⊢
  rw [hg] at hptk ⊢
  split
  · rename_i htype
    rw [if_pos htype] at hptk
    split
    · rename_i hidx
      exact iff_of_true (peerIsolated_of_noKey hkinds rfl) fun h => hidx h.2.2.1
    rename_i hidx
    simp only [ne_eq, not_not] at hidx
    rw [if_neg (by simpa using hidx)] at hptk
    simp only [peerkeyRxEapol4way, hg, hmic, Bool.false_and, Bool.false_eq_true, if_false]
      at hptk ⊢
    split
    · rename_i hack
      refine iff_of_true (peerIsolated_of_noKey (hno
        (wpaSupplicantProcessStk1of4_does cr env k p g _ h0)) ?_) fun h => by simp [hack] at h
      rw [if_pos hack] at hptk
      exact hptk
    · rename_i hack
      rw [if_neg hack] at hptk
      split
      · rename_i hsecure
        -- the key goes to the driver, and no MIC was verified
        refine iff_of_false (fun h => ?_)
          (fun h => h ⟨trivial, htype, hidx, by simpa using hack, hsecure⟩)
        have hmem : .setKey .stk (.cipher (p.cipher.getD .none)) (some p.addr) 0 true
            (List.replicate 6 0) (p.stk.tkOctets (if p.cipher = some .tkip then 32 else 16)) ∈
            (wpaSupplicantProcessStk4of4 env p c).out := by
          simp [wpaSupplicantProcessStk4of4, setStk, wpaSmSetKey, Ctx.emit]
        obtain ⟨-, -, q, -, -, -, f', -, hver⟩ := h.1 _ _ _ _ _ _ _ hmem
        simp only [wpaSupplicantProcessStk4of4, setStk, wpaSmSetKey, Ctx.emit, Ctx.ask, hout,
          List.mem_append, List.mem_singleton, reduceCtorEq, or_false] at hver
        obtain ⟨kek, hkek⟩ := hl _ hver
        simp at hkek
      · rename_i hsecure
        rw [if_neg hsecure] at hptk
        exact iff_of_true (peerIsolated_of_noKey (hno
          (wpaSupplicantProcessStk2of4_does cr env k p g h0)) hptk)
          fun h => hsecure h.2.2.2.2
  · rename_i htype
    rw [if_neg htype] at hptk
    refine iff_of_true ?_ fun h => htype h.2.1
    split
    · rename_i hsmk
      rw [if_pos hsmk] at hptk
      exact peerIsolated_of_noKey (hno (peerkeyRxEapolSmk_does cr env src g _ h0)) hptk
    rename_i hsmk
    rw [if_neg hsmk] at hptk
    rw [if_neg (by simp [hmic])]
    exact peerIsolated_of_noKey hkinds rfl

theorem peerIsolated_signed {c : Ctx} {g : EapolKey} {l : List Out} {q : Peer}
    (hdata : received data = some f) (hsm : c.sm = { sm with peerkey := sm.peerkey.set k q }) 
    (hout : c.out = .micVerified q.stk.kck f :: l) (hl : ∀ o ∈ l, ∃ kek, o = .useKek kek)
    (hk : rxPeer sm src = some k) (hp : sm.peerkey[k]? = some p) (haddr : q.addr = p.addr)
    (hsrc : p.addr = src) (hg : g.keyInfo = f.keyInfo) (hmic : f.keyInfo.mic = true) :
    PeerIsolated sm src data (rxDispatch cr env src g c).1 ↔
      ¬ (f.keyInfo.keyType = false ∧ f.keyInfo.smkMessage = false ∧
        (groupKey cr env sm g).isSome = true) := by
  have hk' : rxPeer c.sm src = some k := by
    rw [hsm]
    exact rxPeer_set hk hp haddr
  have hq : c.sm.peerkey[k]? = some q := by
    rw [hsm]
    simp [(List.getElem?_eq_some_iff.mp hp).1]
  have hptk : c.sm.ptk = sm.ptk := by rw [hsm]
  have hconf : c.sm.conf = sm.conf := by rw [hsm]
  have hkinds : keyKinds c.out = [] := by
    rw [hout]
    refine keyKinds_of_noKey fun o ho => ?_
    rcases List.mem_cons.mp ho with rfl | ho
    · rfl
    · obtain ⟨kek, rfl⟩ := hl o ho
      rfl
  have hkept := (rxDispatch_kept_of_some cr env g hk' hq).ptk
  rw [hptk] at hkept
  have h0 : Does KeptKeys PeerOut c c := .refl (.refl c.sm)
  rw [rxDispatch_of_some cr env g hk' hq] at hkept ⊢
  rw [hg] at hkept ⊢
  split
  · rename_i htype
    rw [if_pos htype] at hkept
    refine iff_of_true ?_ fun h => by simp [htype] at h
    split
    · exact peerIsolated_of_noKey hkinds hptk
    rename_i hidx
    rw [if_neg hidx] at hkept
    obtain ⟨l', hl', hall⟩ := (peerkeyRxEapol4way_does cr env k q g f.keyInfo.ver h0 hq).emitted
    obtain ⟨q', hq', haddr', hstk', hcipher'⟩ :=
      peerkeyRxEapol4way_keepsStk cr env k q g f.keyInfo.ver c (by rw [hg, hmic]) hq
    refine peerIsolated_of_stkOut hdata (p := q) (q := q') (l := l ++ l') ?_ ?_
      (haddr.trans hsrc) (List.mem_of_getElem? hq') haddr' hstk' hcipher' hkept
    · rw [hl', hout, List.cons_append]
    · intro o ho
      rcases List.mem_append.mp ho with ho | ho
      · exact .inl (hl o ho)
      · exact .inr (hall o ho)
  · rename_i htype
    rw [if_neg htype] at hkept
    split
    · rename_i hsmk
      rw [if_pos hsmk] at hkept
      refine iff_of_true (peerIsolated_of_noKey ?_ hkept) fun h => by simp [hsmk] at h
      rw [((peerkeyRxEapolSmk_does cr env src g f.keyInfo.ver h0).mono id PeerOut.noKey).keyKinds,
        hkinds]
    · rename_i hsmk
      rw [if_neg hsmk, if_pos hmic] at hkept
      have hgk := groupKey_eq cr env g sm (c := c.ask) hconf hptk
      rw [← hg] at hkept ⊢
      cases hgd : groupKey cr env sm g with
      | none =>
        rw [hgd] at hgk
        refine iff_of_true (peerIsolated_of_noKey ?_ hkept) (by simp)
        rw [keyKinds_process1of2_of_none cr env hgk, hkinds]
      | some gd =>
        rw [hgd] at hgk
        have hmem := keyKinds_process1of2_of_some cr env (by rw [hgk]; rfl)
        obtain ⟨alg, addr, idx, setTx, seq, key, hset⟩ := mem_keyKinds hmem
        rw [← hg] at htype hsmk
        refine iff_of_false (fun h => ?_) fun h =>
          h ⟨by simpa using htype, by simpa using hsmk, rfl⟩
        have hkind := (h.1 _ _ _ _ _ _ _ hset).1
        simp at hkind

theorem rxKeyFrame_peerIsolated (hdata : received data = some f) (hk : rxPeer sm src = some k)
    (hp : sm.peerkey[k]? = some p) (hsrc : p.addr = src) :
    PeerIsolated sm src data (rxKeyFrame cr env src f ⟨sm, 1, []⟩).1 ↔
      ¬ (rxChecks sm src f = true ∧ f.keyDataLength.toNat ≤ f.keyData.length ∧
        ∃ g, opened cr env sm f = some g ∧ (UnsignedStk4 f ∨ GroupFromPeer cr env sm p f g)) := by
  have hnil {c : Ctx} (hout : c.out = []) (hptk : c.sm.ptk = sm.ptk) :
      PeerIsolated sm src data c := by
    refine peerIsolated_of_noKey ?_ hptk
    rw [hout]
    rfl
  rw [rxKeyFrame]
  by_cases hchecks : rxChecks sm src f = true
  swap
  · rw [if_pos (by simpa using hchecks)]
    exact iff_of_true (hnil rfl rfl) fun h => hchecks h.1
  rw [if_neg (by simpa using hchecks)]
  by_cases hlen : f.keyData.length < f.keyDataLength.toNat
  · -- the frame is too short for its key data, with or without a MIC
    refine iff_of_true ?_ fun h => by omega
    cases hv : rxVerify cr src f ⟨sm, 1, []⟩ with
    | mk c1 ok =>
      have hiso : PeerIsolated sm src data c1 := by
        rcases rxVerify_of_some hk hp hv with ⟨-, rfl, -⟩ | ⟨-, q, -, hsm, htrue, hfalse⟩
        · exact hnil rfl rfl
        refine peerIsolated_of_noKey ?_ (by rw [hsm])
        cases ok with
        | true =>
          rw [htrue rfl]
          rfl
        | false =>
          rw [hfalse rfl]
          rfl
      cases ok with
      | true => simpa [hlen] using hiso
      | false => exact hiso
  have hlen' : f.keyDataLength.toNat ≤ f.keyData.length := by omega
  cases hmic : f.keyInfo.mic with
  | false =>
    have hv : rxVerify cr src f ⟨sm, 1, []⟩ = (⟨sm, 1, []⟩, true) := by simp [rxVerify, hmic]
    simp only [hv, if_neg hlen]
    have hop := opened_eq cr env sm ⟨sm, 1, []⟩ f rfl rfl rfl rfl
    cases hd : rxDecrypt cr env f ⟨sm, 1, []⟩ with
    | mk c2 r =>
      rw [hd] at hop
      simp only at hop
      obtain ⟨hsm, hout, hopen⟩ := rxDecrypt_cases hd
      obtain ⟨l, hl, hall⟩ : ∃ l, c2.out = l ∧ ∀ o ∈ l, ∃ kek, o = .useKek kek := by
        rcases hout with hout | ⟨-, -, -, hout⟩
        · exact ⟨[], hout, by simp⟩
        · exact ⟨_, hout, by simp⟩
      cases r with
      | none =>
        refine iff_of_true (peerIsolated_of_noKey ?_ (by rw [hsm])) ?_
        · rw [hl]
          refine keyKinds_of_noKey fun o ho => ?_
          obtain ⟨kek, rfl⟩ := hall o ho
          rfl
        · rintro ⟨-, -, g, hg, -⟩
          rw [← hop] at hg
          simp at hg
      | some g =>
        rw [peerIsolated_unsigned cr env hsm hl hall hk hp (hopen g rfl).keyInfo hmic]
        refine not_congr ⟨fun h => ⟨hchecks, hlen', g, hop.symm, .inl h⟩, ?_⟩
        rintro ⟨-, -, g', -, h | h⟩
        · exact h
        · rw [GroupFromPeer, hmic] at h
          simp at h
  | true =>
    have hsnd : (rxVerify cr src f ⟨sm, 1, []⟩).2 = peerMicOk cr sm p f := by
      simp only [rxVerify, hmic, Bool.not_true, Bool.false_eq_true, if_false, hk, hp]
      exact peerkeyVerifyEapolKeyMic_snd cr _
    cases hv : rxVerify cr src f ⟨sm, 1, []⟩ with
    | mk c1 ok =>
      rw [hv] at hsnd
      simp only at hsnd
      obtain ⟨hno, -⟩ | ⟨-, q, haddr, hsm1, htrue, hfalse⟩ := rxVerify_of_some hk hp hv
      · simp [hmic] at hno
      cases ok with
      | false =>
        refine iff_of_true (hnil (hfalse rfl) (by rw [hsm1])) ?_
        rintro ⟨-, -, g, -, h | h⟩
        · rw [UnsignedStk4, hmic] at h
          simp at h
        · rw [GroupFromPeer, ← hsnd] at h
          simp at h
      | true =>
        simp only [if_neg hlen]
        have htick : c1.tick = 1 := rxVerify_tick hv
        have hop := opened_eq cr env sm c1 f (by rw [hsm1]) (by rw [hsm1])
          (by rw [hsm1]) htick
        cases hd : rxDecrypt cr env f c1 with
        | mk c2 r =>
          rw [hd] at hop
          simp only at hop
          obtain ⟨hsm2, hout, hopen⟩ := rxDecrypt_cases hd
          obtain ⟨l, hl, hall⟩ : ∃ l, c2.out = .micVerified q.stk.kck f :: l ∧
              ∀ o ∈ l, ∃ kek, o = .useKek kek := by
            rw [htrue rfl, List.nil_append] at hout
            rcases hout with hout | ⟨-, -, -, hout⟩
            · exact ⟨[], hout, by simp⟩
            · exact ⟨_, hout, by simp⟩
          cases r with
          | none =>
            refine iff_of_true (peerIsolated_of_noKey ?_ (by rw [hsm2, hsm1])) ?_
            · rw [hl]
              refine keyKinds_of_noKey fun o ho => ?_
              rcases List.mem_cons.mp ho with rfl | ho
              · rfl
              · obtain ⟨kek, rfl⟩ := hall o ho
                rfl
            · rintro ⟨-, -, g, hg, -⟩
              rw [← hop] at hg
              simp at hg
          | some g =>
            rw [peerIsolated_signed cr env hdata (hsm2.trans hsm1) hl hall hk hp haddr
              hsrc (hopen g rfl).keyInfo hmic]
            refine not_congr ⟨fun h => ⟨hchecks, hlen', g, hop.symm,
              .inr ⟨hmic, h.1, h.2.1, hsnd.symm, h.2.2⟩⟩, ?_⟩
            rintro ⟨-, -, g', hg', h | h⟩
            · rw [UnsignedStk4, hmic] at h
              simp at h
            · rw [← hop, Option.some.injEq] at hg'
              subst hg'
              exact ⟨h.2.1, h.2.2.1, h.2.2.2.2⟩

end Frame

-- Frames from a peer stay away from the keys of the AP and install a key of the peer only when it
-- authenticated them, except for the two kinds of frames that `PeerDefect` describes.
theorem peerIsolated_iff (cr : Crypto) (env : Env) (sm : Sm) (src : Addr) (data : Octets) (k : ℕ)
    (p : Peer) (hk : rxPeer sm src = some k) (hp : sm.peerkey[k]? = some p) :
    PeerIsolated sm src data (wpaSmRxEapol cr env src data ⟨sm, 0, []⟩).1 ↔
      ¬ PeerDefect cr env sm src p data := by
  obtain ⟨p', hp', hsrc⟩ := rxPeer_some hk
  obtain rfl : p' = p := Option.some.inj (hp'.symm.trans hp)
  have hnil {t : ℕ} : PeerIsolated sm src data ⟨sm, t, []⟩ := peerIsolated_of_noKey rfl rfl
  rw [wpaSmRxEapol]
  cases hf : EapolKey.ofOctets? data with
  | none =>
    refine iff_of_true hnil ?_
    rintro ⟨f, hf', -⟩
    simp [hf] at hf'
  | some f =>
    have hdata : received data = some (rxFrame f) := by rw [received, hf, Option.map_some]
    simp only []
    split
    · rename_i halloc
      refine iff_of_true hnil ?_
      rintro ⟨f', -, h, -⟩
      simp [h] at halloc
    rename_i halloc
    simp only [Bool.not_eq_true', Bool.not_eq_false] at halloc
    split
    · rename_i hheader
      refine iff_of_true hnil ?_
      rintro ⟨f', hf', -, h, -⟩
      rw [hf, Option.some.injEq] at hf'
      subst hf'
      simp [h] at hheader
    · rename_i hheader
      simp only [Bool.not_eq_true', Bool.not_eq_false] at hheader
      refine (rxKeyFrame_peerIsolated cr env hdata hk hp hsrc).trans (not_congr ?_)
      constructor
      · rintro ⟨h1, h2, h3⟩
        exact ⟨f, hf, halloc, hheader, h1, h2, h3⟩
      · rintro ⟨f', hf', -, -, h1, h2, h3⟩
        rw [hf, Option.some.injEq] at hf'
        subst hf'
        exact ⟨h1, h2, h3⟩

def samplePeer : List Event :=
  [.configure { sampleConf with peerkeyEnabled := true, allowedPairwiseCipher := [.ccmp] },
    .rxEapol 1 (sampleMsg3 2),
    .rxEapol 1 (signed (sampleRun []).2.tptk.kck (sampleFrame (KeyInfo.typeHmacSha1Aes |||
      KeyInfo.ackBit ||| KeyInfo.micBit ||| KeyInfo.secureBit ||| KeyInfo.smkMessageBit) 3
      (smkRsnIe [AuthIe.rsnCipherSuiteCcmp] ++ wpaAddKde rsnKeyDataMacAddr (putBE 6 (3 : Addr)) []))).toOctets]

def sampleForged : Octets :=
  (sampleFrame (KeyInfo.typeHmacSha1Aes ||| KeyInfo.keyTypeBit ||| KeyInfo.secureBit |||
    KeyInfo.smkMessageBit) 1 []).toOctets

def samplePeerEntry : Peer := (sampleRun samplePeer).2.peerkey.headD { addr := 0 }

set_option maxRecDepth 100000 in
theorem samplePeer_rxPeer : rxPeer (sampleRun samplePeer).2 3 = some 0 := by
  rfl

theorem samplePeer_entry : (sampleRun samplePeer).2.peerkey[0]? = some samplePeerEntry := by
  obtain ⟨p, hp, -⟩ := rxPeer_some samplePeer_rxPeer
  unfold samplePeerEntry
  cases hpeers : (sampleRun samplePeer).2.peerkey with
  | nil => simp [hpeers] at hp
  | cons q peers => rfl

theorem peerIsolated_iff_forged :
    rxPeer (sampleRun samplePeer).2 3 = some 0 ∧
    (PeerIsolated (sampleRun samplePeer).2 3 sampleForged
        (wpaSmRxEapol .transparent .benign 3 sampleForged ⟨(sampleRun samplePeer).2, 0, []⟩).1 ↔
      ¬ PeerDefect .transparent .benign (sampleRun samplePeer).2 3 samplePeerEntry sampleForged) :=
  ⟨samplePeer_rxPeer, peerIsolated_iff _ _ _ 3 sampleForged 0 samplePeerEntry samplePeer_rxPeer samplePeer_entry⟩

-- The forged frame makes the Supplicant install an STK that was never derived.
set_option maxRecDepth 100000 in
theorem stk_installed_without_mic :
    Run .transparent (sampleRun samplePeer).1 (sampleRun samplePeer).2 ∧
      rxPeer (sampleRun samplePeer).2 3 = some 0 ∧
      ¬ PeerIsolated (sampleRun samplePeer).2 3 sampleForged
        (wpaSmRxEapol .transparent .benign 3 sampleForged ⟨(sampleRun samplePeer).2, 0, []⟩).1 := by
  refine ⟨run_reached _ _ _ _, samplePeer_rxPeer, fun hiso => ?_⟩
  have hout : (wpaSmRxEapol .transparent .benign 3 sampleForged
      ⟨(sampleRun samplePeer).2, 0, []⟩).1.out =
      [.setKey .stk (.cipher .ccmp) (some 3) 0 true (List.replicate 6 0) (List.replicate 16 0)] := by
    rfl
  have hset := hiso.1
  rw [hout] at hset
  obtain ⟨-, -, q, -, -, -, f, -, hver⟩ := hset _ _ _ _ _ _ _ (List.mem_singleton.mpr rfl)
  simp at hver

end WpaSupplicant.Supplicant

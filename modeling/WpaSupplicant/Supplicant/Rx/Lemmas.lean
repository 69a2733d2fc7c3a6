import WpaSupplicant.Supplicant.PeerKey.Lemmas
import WpaSupplicant.Supplicant.Rx

namespace WpaSupplicant.Supplicant

open Lib.Octets KeyData

-- The frame that `wpa_sm_rx_eapol` works on
def received (data : Octets) : Option EapolKey := (EapolKey.ofOctets? data).map rxFrame

section Verify

variable {cr : Crypto} {f : EapolKey} {c c' : Ctx}

-- All that holds once the MIC of a frame of the Authenticator was verified: it matches under
-- the KCK of what is the PTK from then on, and the frame's replay counter is taken over.
structure Verified (cr : Crypto) (f : EapolKey) (c c' : Ctx) : Prop where
  matched : micMatches cr c'.sm.ptk.kck f.keyInfo.ver f = true
  out : c'.out = c.out ++ [.micVerified c'.sm.ptk.kck f]
  ptkSet : c'.sm.ptkSet = true
  ptk : (c'.sm.ptk = c.sm.ptk ∧ c.sm.ptkSet = true) ∨ (c'.sm.ptk = c.sm.tptk ∧ c.sm.tptkSet = true)
  tptk : c'.sm.tptk = c.sm.tptk
  tptkSet : c'.sm.tptkSet = true → c.sm.tptkSet = true
  counter : c'.sm.rxReplayCounter = f.replayCounter
  counterSet : c'.sm.rxReplayCounterSet = true
  anonce : c'.sm.anonce = c.sm.anonce
  peerkey : c'.sm.peerkey = c.sm.peerkey
  conf : c'.sm.conf = c.sm.conf

theorem wpaSupplicantVerifyEapolKeyMic_true
    (h : wpaSupplicantVerifyEapolKeyMic cr f f.keyInfo.ver c = (c', true)) : Verified cr f c c' := by
  rw [wpaSupplicantVerifyEapolKeyMic] at h
  split at h
  · rename_i htptk
    rw [Bool.and_eq_true] at htptk
    obtain ⟨rfl, -⟩ := Prod.mk.inj h
    exact ⟨htptk.2, rfl, rfl, .inr ⟨rfl, htptk.1⟩, rfl, by simp [Ctx.emit, smVerified], rfl, rfl,
      rfl, rfl, rfl⟩
  · split at h
    · rename_i hptk
      rw [Bool.and_eq_true] at hptk
      obtain ⟨rfl, -⟩ := Prod.mk.inj h
      exact ⟨hptk.2, rfl, hptk.1, .inl ⟨rfl, hptk.1⟩, rfl, id, rfl, rfl, rfl, rfl, rfl⟩
    · simp at h

theorem wpaSupplicantVerifyEapolKeyMic_false {ver : KeyInfo}
    (h : wpaSupplicantVerifyEapolKeyMic cr f ver c = (c', false)) : c' = c := by
  rw [wpaSupplicantVerifyEapolKeyMic] at h
  split at h
  · simp at h
  split at h
  · simp at h
  · exact (Prod.mk.inj h).1.symm

-- A source without an entry in the list of peers is the Authenticator.
theorem rxVerify_of_none {src : Addr} {ok : Bool} (hpeer : rxPeer c.sm src = none)
    (h : rxVerify cr src f c = (c', ok)) :
    (f.keyInfo.mic = false ∧ c' = c ∧ ok = true) ∨
    (f.keyInfo.mic = true ∧ ok = true ∧ Verified cr f c c') ∨
    (f.keyInfo.mic = true ∧ ok = false ∧ c' = c) := by
  rw [rxVerify] at h
  split at h
  · rename_i hmic
    obtain ⟨rfl, rfl⟩ := Prod.mk.inj h
    exact .inl ⟨by simpa using hmic, rfl, rfl⟩
  rename_i hmic
  have hmic : f.keyInfo.mic = true := by simpa using hmic
  rw [hpeer] at h
  cases ok with
  | false => exact .inr (.inr ⟨hmic, rfl, wpaSupplicantVerifyEapolKeyMic_false h⟩)
  | true => exact .inr (.inl ⟨hmic, rfl, wpaSupplicantVerifyEapolKeyMic_true h⟩)

end Verify

section Decrypt

variable {cr : Crypto} {env : Env} {f : EapolKey} {c c' : Ctx}

def plainKeyData (cr : Crypto) (kek : BitVec 128) (f : EapolKey) : Option Octets :=
  if f.keyInfo.ver = KeyInfo.typeHmacMd5Rc4 then
    some (cr.rc4Skip (putBE 16 f.keyIv ++ putBE 16 kek) 256 (keyDataOf f))
  else cr.aesUnwrap kek (keyDataOf f)

-- The decryption of key data changes nothing in the state machine. What it hands on was
-- decrypted with the KEK of the PTK.
theorem wpaSupplicantDecryptKeyData_cases {r : Option EapolKey}
    (h : wpaSupplicantDecryptKeyData cr env f f.keyInfo.ver c = (c', r)) :
    c'.sm = c.sm ∧
    ((r = none ∧ c'.out = c.out) ∨
      (c.sm.ptkSet = true ∧ c'.out = c.out ++ [.useKek c.sm.ptk.kek] ∧
        ∀ g, r = some g → ∃ plain, plainKeyData cr c.sm.ptk.kek f = some plain ∧
          g = withKeyData f plain)) := by
  simp only [wpaSupplicantDecryptKeyData] at h
  split at h
  · obtain ⟨rfl, rfl⟩ := Prod.mk.inj h
    exact ⟨rfl, .inl ⟨rfl, rfl⟩⟩
  rename_i hset
  have hset : c.sm.ptkSet = true := by simpa using hset
  split at h
  · rename_i hver
    obtain ⟨rfl, rfl⟩ := Prod.mk.inj h
    refine ⟨rfl, .inr ⟨hset, rfl, fun g hg => ⟨_, if_pos hver, ?_⟩⟩⟩
    exact (Option.some.inj hg).symm
  rename_i hver
  split at h
  · split at h
    · obtain ⟨rfl, rfl⟩ := Prod.mk.inj h
      exact ⟨rfl, .inl ⟨rfl, rfl⟩⟩
    split at h
    · obtain ⟨rfl, rfl⟩ := Prod.mk.inj h
      exact ⟨rfl, .inl ⟨rfl, rfl⟩⟩
    split at h
    · obtain ⟨rfl, rfl⟩ := Prod.mk.inj h
      exact ⟨rfl, .inr ⟨hset, rfl, by simp⟩⟩
    obtain ⟨rfl, rfl⟩ := Prod.mk.inj h
    refine ⟨rfl, .inr ⟨hset, rfl, fun g hg => ?_⟩⟩
    obtain ⟨plain, hplain, rfl⟩ := Option.map_eq_some_iff.mp hg
    exact ⟨plain, by rw [plainKeyData, if_neg hver, hplain], rfl⟩
  · obtain ⟨rfl, rfl⟩ := Prod.mk.inj h
    exact ⟨rfl, .inl ⟨rfl, rfl⟩⟩

-- The frame the handlers see: decrypted if it is an encrypted frame of RSN, and else as it was
-- received
structure Opened (cr : Crypto) (sm : Sm) (f g : EapolKey) : Prop where
  keyInfo : g.keyInfo = f.keyInfo
  keyNonce : g.keyNonce = f.keyNonce
  replayCounter : g.replayCounter = f.replayCounter
  decrypted : sm.conf.proto = .rsn → f.keyInfo.encrKeyData = true →
    ∃ plain, plainKeyData cr sm.ptk.kek f = some plain ∧ g = withKeyData f plain

theorem rxDecrypt_cases {r : Option EapolKey} (h : rxDecrypt cr env f c = (c', r)) :
    c'.sm = c.sm ∧
    (c'.out = c.out ∨ (c.sm.conf.proto = .rsn ∧ f.keyInfo.encrKeyData = true ∧
      c.sm.ptkSet = true ∧ c'.out = c.out ++ [.useKek c.sm.ptk.kek])) ∧
    ∀ g, r = some g → Opened cr c.sm f g := by
  rw [rxDecrypt] at h
  split at h
  · rename_i hencr
    obtain ⟨hsm, hcase⟩ := wpaSupplicantDecryptKeyData_cases h
    rcases hcase with ⟨rfl, hout⟩ | ⟨hset, hout, hplain⟩
    · exact ⟨hsm, .inl hout, by simp⟩
    refine ⟨hsm, .inr ⟨hencr.1, hencr.2, hset, hout⟩, fun g hg => ?_⟩
    obtain ⟨plain, hdec, rfl⟩ := hplain g hg
    exact ⟨rfl, rfl, rfl, fun _ _ => ⟨plain, hdec, rfl⟩⟩
  · rename_i hencr
    obtain ⟨rfl, rfl⟩ := Prod.mk.inj h
    refine ⟨rfl, .inl rfl, fun g hg => ?_⟩
    obtain rfl := Option.some.inj hg
    exact ⟨rfl, rfl, rfl, fun hrsn he => absurd ⟨hrsn, he⟩ hencr⟩

end Decrypt

section Frame

variable (cr : Crypto) (env : Env) (src : Addr) (f : EapolKey) (c : Ctx)

theorem rxKeyFrame_cases :
    (rxKeyFrame cr env src f c).1 = c ∨
    (rxChecks c.sm src f = true ∧ ∃ c1 ok, rxVerify cr src f c = (c1, ok) ∧
      ((rxKeyFrame cr env src f c).1 = c1 ∨
        (ok = true ∧ f.keyDataLength.toNat ≤ f.keyData.length ∧
          ∃ c2 r, rxDecrypt cr env f c1 = (c2, r) ∧
            ((r = none ∧ (rxKeyFrame cr env src f c).1 = c2) ∨
              ∃ g, r = some g ∧ (rxKeyFrame cr env src f c).1 = (rxDispatch cr env src g c2).1)))) := by
  rw [rxKeyFrame]
  split
  · exact .inl rfl
  rename_i hchecks
  refine .inr ⟨by simpa using hchecks, ?_⟩
  cases hv : rxVerify cr src f c with
  | mk c1 ok =>
    refine ⟨c1, ok, rfl, ?_⟩
    cases ok with
    | false => exact .inl rfl
    | true =>
      simp only []
      split
      · exact .inl rfl
      rename_i hlen
      refine .inr ⟨trivial, by omega, ?_⟩
      cases hd : rxDecrypt cr env f c1 with
      | mk c2 r =>
        refine ⟨c2, r, rfl, ?_⟩
        cases r with
        | none => exact .inl ⟨rfl, rfl⟩
        | some g => exact .inr ⟨g, rfl, rfl⟩

def Reply (sm : Sm) (f reply : EapolKey) : Prop :=
  reply = msg4 sm f f.keyInfo.ver ∨ reply = groupMsg2 sm f f.keyInfo.ver

-- The handlers of a frame that comes from no peer: message 1/4 without a MIC, message 3/4 and
-- group message 1/2 with one, and the SMK messages, with or without
theorem rxDispatch_of_none (hpeer : rxPeer c.sm src = none) :
    (rxDispatch cr env src f c).1 = c ∨
    (f.keyInfo.mic = false ∧ Answered cr f c (rxDispatch cr env src f c).1) ∨
    (f.keyInfo.mic = true ∧ ∃ reply, Reply c.sm f reply ∧
      Does Kept (HandlerOut c.sm f (wpaSupplicantParseIes (keyDataOf f)).2 reply) c
        (rxDispatch cr env src f c).1) ∨
    (rxDispatch cr env src f c).1 = peerkeyRxEapolSmk cr env src f f.keyInfo.ver c := by
  simp only [rxDispatch, hpeer, Option.bind_none]
  split
  · split
    · exact .inl rfl
    split
    · rename_i hmic
      exact .inr (.inr (.inl ⟨hmic, _, .inl rfl,
        wpaSupplicantProcess3of4_does cr env f f.keyInfo.ver c⟩))
    · rename_i hmic
      exact .inr (.inl ⟨by simpa using hmic,
        wpaSupplicantProcess1of4_answered cr env f f.keyInfo.ver c⟩)
  · split
    · exact .inr (.inr (.inr rfl))
    split
    · rename_i hmic
      exact .inr (.inr (.inl ⟨hmic, _, .inr rfl,
        wpaSupplicantProcess1of2_does cr env f f.keyInfo.ver c⟩))
    · exact .inl rfl

theorem wpaSmRxEapol_cases (data : Octets) :
    ((wpaSmRxEapol cr env src data c).1.sm = c.sm ∧
      (wpaSmRxEapol cr env src data c).1.out = c.out) ∨
    ∃ f, received data = some f ∧
      (wpaSmRxEapol cr env src data c).1 = (rxKeyFrame cr env src f c.ask).1 := by
  rw [wpaSmRxEapol]
  split
  · exact .inl ⟨rfl, rfl⟩
  rename_i f hf
  simp only []
  split
  · exact .inl ⟨rfl, rfl⟩
  split
  · exact .inl ⟨rfl, rfl⟩
  · exact .inr ⟨rxFrame f, by rw [received, hf]; rfl, rfl⟩

end Frame

section FromAuthenticator

variable {cr : Crypto} {env : Env} {src : Addr} {f : EapolKey} {a : Ctx}

theorem peerkeyRxEapolSmk_of_disabled (cr : Crypto) (env : Env) (src : Addr) (f : EapolKey)
    (ver : KeyInfo) (c : Ctx) (h : c.sm.conf.peerkeyEnabled = false) :
    peerkeyRxEapolSmk cr env src f ver c = c := by
  simp [peerkeyRxEapolSmk, wpaSupplicantProcessSmkM2, wpaSupplicantProcessSmkM45, h]

-- What a frame without a MIC may do
structure Unverified (cr : Crypto) (f : EapolKey) (a c : Ctx) : Prop where
  kept : KeptPtk a.sm c.sm
  peerkey : a.sm.conf.peerkeyEnabled = false → c.sm.peerkey = a.sm.peerkey
  emitted : ∃ l, c.out = a.out ++ l ∧ ∀ o ∈ l, (∃ kek, o = .useKek kek) ∨ Msg1Out a.sm.conf o ∨
    (a.sm.conf.peerkeyEnabled = true ∧ PeerOut o)
  tptk : (c.sm.tptk = a.sm.tptk ∧ c.sm.tptkSet = a.sm.tptkSet) ∨
    ∃ sm : Sm, sm.conf.pairwiseCipher = a.sm.conf.pairwiseCipher ∧
      sm.conf.keyMgmt = a.sm.conf.keyMgmt ∧ .derivePtk (ptkInput sm f.keyNonce) ∈ c.out ∧
      c.sm.tptk.keys = cr.ptkKeys (ptkInput sm f.keyNonce)

def VerifiedOut (cr : Crypto) (sm : Sm) (f : EapolKey) (o : Out) : Prop :=
  o = .useKek sm.ptk.kek ∨
  (∃ g reply, Opened cr sm f g ∧ Reply sm g reply ∧
    HandlerOut sm g (wpaSupplicantParseIes (keyDataOf g)).2 reply o) ∨
  (sm.conf.peerkeyEnabled = true ∧ PeerOut o)

structure Handled (cr : Crypto) (f : EapolKey) (a c : Ctx) : Prop where
  verified : ∃ c1, Verified cr f a c1 ∧ KeptKeys c1.sm c.sm ∧
    (a.sm.conf.peerkeyEnabled = false → c.sm.peerkey = a.sm.peerkey) ∧
    ∃ l, c.out = c1.out ++ l ∧ ∀ o ∈ l, VerifiedOut cr c1.sm f o

theorem unverified_dispatch {c : Ctx} {g : EapolKey} {l : List Out} (hsm : c.sm = a.sm)
    (hout : c.out = a.out ++ l) (hl : ∀ o ∈ l, ∃ kek, o = .useKek kek)
    (hpeer : rxPeer a.sm src = none) (hg : Opened cr a.sm f g) (hmic : f.keyInfo.mic = false) :
    Unverified cr f a (rxDispatch cr env src g c).1 := by
  rw [← hsm] at hpeer
  have hmicg : g.keyInfo.mic = false := by rw [hg.keyInfo, hmic]
  have hsame : Unverified cr f a c := by
    refine ⟨?_, fun _ => by rw [hsm], ⟨l, hout, fun o ho => .inl (hl o ho)⟩, .inl ?_⟩
    · rw [hsm]
      exact .refl _
    · rw [hsm]
      exact ⟨rfl, rfl⟩
  rcases rxDispatch_of_none cr env src g c hpeer with h | ⟨-, h⟩ | ⟨h, -⟩ | h
  · rw [h]
    exact hsame
  · generalize (rxDispatch cr env src g c).1 = c' at h ⊢
    obtain ⟨l', hl', hall⟩ := h.emitted
    refine ⟨by rw [← hsm]; exact h.kept, fun _ => by rw [h.peerkey, hsm], ⟨l ++ l', ?_, ?_⟩, ?_⟩
    · rw [hl', hout, List.append_assoc]
    · intro o ho
      rcases List.mem_append.mp ho with ho | ho
      · exact .inl (hl o ho)
      · rw [← hsm]
        exact .inr (.inl (hall o ho))
    · have ht := h.tptk
      rw [hg.keyNonce, hsm] at ht
      exact ht
  · rw [hmicg] at h
    exact absurd h (by simp)
  · rw [h]
    by_cases hen : c.sm.conf.peerkeyEnabled = true
    · have h' := peerkeyRxEapolSmk_does cr env src g g.keyInfo.ver
        (Does.refl (KeptKeys.refl c.sm) : Does KeptKeys PeerOut c c)
      generalize peerkeyRxEapolSmk cr env src g g.keyInfo.ver c = c' at h' ⊢
      obtain ⟨l', hl', hall⟩ := h'.emitted
      refine ⟨by rw [← hsm]; exact h'.rel.toKeptPtk, fun hno => ?_, ⟨l ++ l', ?_, ?_⟩, .inl ?_⟩
      · rw [← hsm, hen] at hno
        exact absurd hno (by simp)
      · rw [hl', hout, List.append_assoc]
      · intro o ho
        rcases List.mem_append.mp ho with ho | ho
        · exact .inl (hl o ho)
        · rw [← hsm]
          exact .inr (.inr ⟨hen, hall o ho⟩)
      · rw [← hsm]
        exact ⟨h'.rel.tptk, h'.rel.tptkSet⟩
    · rw [peerkeyRxEapolSmk_of_disabled cr env src g _ c (by simpa using hen)]
      exact hsame

theorem handled_dispatch {c1 c : Ctx} {g : EapolKey} {l : List Out} (hver : Verified cr f a c1)
    (hsm : c.sm = c1.sm) (hout : c.out = c1.out ++ l) (hl : ∀ o ∈ l, o = .useKek c1.sm.ptk.kek)
    (hpeer : rxPeer a.sm src = none) (hg : Opened cr c1.sm f g) (hmic : f.keyInfo.mic = true) :
    Handled cr f a (rxDispatch cr env src g c).1 := by
  have hpeer' : rxPeer c.sm src = none := by
    rw [rxPeer, hsm, hver.peerkey]
    exact hpeer
  have hmicg : g.keyInfo.mic = true := by rw [hg.keyInfo, hmic]
  have hsame : Handled cr f a c := by
    refine ⟨c1, hver, ?_, fun _ => by rw [hsm, hver.peerkey], l, hout, fun o ho => .inl (hl o ho)⟩
    rw [hsm]
    exact .refl _
  rcases rxDispatch_of_none cr env src g c hpeer' with h | ⟨h, -⟩ | ⟨-, reply, hreply, h⟩ | h
  · rw [h]
    exact hsame
  · rw [hmicg] at h
    exact absurd h (by simp)
  · generalize (rxDispatch cr env src g c).1 = c' at h ⊢
    rw [hsm] at hreply
    obtain ⟨l', hl', hall⟩ := h.emitted
    refine ⟨c1, hver, ?_, fun _ => ?_, l ++ l', by rw [hl', hout, List.append_assoc], ?_⟩
    · rw [← hsm]
      exact h.rel.toKeptKeys
    · rw [h.rel.peerkey, hsm, hver.peerkey]
    · intro o ho
      rcases List.mem_append.mp ho with ho | ho
      · exact .inl (hl o ho)
      refine .inr (.inl ⟨g, reply, hg, hreply, ?_⟩)
      rw [← hsm]
      exact hall o ho
  · rw [h]
    by_cases hen : c.sm.conf.peerkeyEnabled = true
    · have h' := peerkeyRxEapolSmk_does cr env src g g.keyInfo.ver
        (Does.refl (KeptKeys.refl c.sm) : Does KeptKeys PeerOut c c)
      generalize peerkeyRxEapolSmk cr env src g g.keyInfo.ver c = c' at h' ⊢
      obtain ⟨l', hl', hall⟩ := h'.emitted
      refine ⟨c1, hver, by rw [← hsm]; exact h'.rel, fun hno => ?_, l ++ l',
        by rw [hl', hout, List.append_assoc], ?_⟩
      · rw [← hver.conf, ← hsm, hen] at hno
        exact absurd hno (by simp)
      · intro o ho
        rcases List.mem_append.mp ho with ho | ho
        · exact .inl (hl o ho)
        · rw [hsm] at hen
          exact .inr (.inr ⟨hen, hall o ho⟩)
    · rw [peerkeyRxEapolSmk_of_disabled cr env src g _ c (by simpa using hen)]
      exact hsame

theorem wpaSmRxEapol_of_none (cr : Crypto) (env : Env) (src : Addr) (data : Octets) (a : Ctx)
    (hpeer : rxPeer a.sm src = none) :
    ((wpaSmRxEapol cr env src data a).1.sm = a.sm ∧
      (wpaSmRxEapol cr env src data a).1.out = a.out) ∨
    ∃ f, received data = some f ∧ rxChecks a.sm src f = true ∧
      ((f.keyInfo.mic = false ∧ Unverified cr f a (wpaSmRxEapol cr env src data a).1) ∨
        (f.keyInfo.mic = true ∧ Handled cr f a (wpaSmRxEapol cr env src data a).1)) := by
  rcases wpaSmRxEapol_cases cr env src a data with h | ⟨f, hf, h⟩
  · exact .inl h
  rw [h]
  rcases rxKeyFrame_cases cr env src f a.ask with h | ⟨hchecks, c1, ok, hv, h⟩
  · rw [h]
    exact .inl ⟨rfl, rfl⟩
  have hpeer' : rxPeer a.ask.sm src = none := hpeer
  rcases rxVerify_of_none hpeer' hv with ⟨hmic, rfl, rfl⟩ | ⟨hmic, rfl, hver⟩ | ⟨hmic, rfl, rfl⟩
  · rcases h with h | ⟨-, -, c2, r, hd, h⟩
    · rw [h]
      exact .inl ⟨rfl, rfl⟩
    obtain ⟨hsm, hout, hopen⟩ := rxDecrypt_cases hd
    have hl : ∃ l, c2.out = a.out ++ l ∧ ∀ o ∈ l, ∃ kek, o = .useKek kek := by
      rcases hout with hout | ⟨-, -, -, hout⟩
      · exact ⟨[], by simp [hout, Ctx.ask], by simp⟩
      · exact ⟨_, hout, by simp⟩
    obtain ⟨l, hout, hl⟩ := hl
    refine .inr ⟨f, hf, hchecks, .inl ⟨hmic, ?_⟩⟩
    rcases h with ⟨-, h⟩ | ⟨g, rfl, h⟩
    · rw [h]
      refine ⟨?_, fun _ => by rw [hsm]; rfl, ⟨l, hout, fun o ho => .inl (hl o ho)⟩, .inl ?_⟩
      · rw [hsm]
        exact .refl _
      · rw [hsm]
        exact ⟨rfl, rfl⟩
    · rw [h]
      exact unverified_dispatch hsm hout hl hpeer (hopen g rfl) hmic
  · have hver' : Verified cr f a c1 := ⟨hver.matched, hver.out, hver.ptkSet, hver.ptk, hver.tptk,
      hver.tptkSet, hver.counter, hver.counterSet, hver.anonce, hver.peerkey, hver.conf⟩
    refine .inr ⟨f, hf, hchecks, .inr ⟨hmic, ?_⟩⟩
    rcases h with h | ⟨-, -, c2, r, hd, h⟩
    · rw [h]
      exact ⟨c1, hver', .refl _, fun _ => hver.peerkey, [], by simp, by simp⟩
    obtain ⟨hsm, hout, hopen⟩ := rxDecrypt_cases hd
    have hl : ∃ l, c2.out = c1.out ++ l ∧ ∀ o ∈ l, o = .useKek c1.sm.ptk.kek := by
      rcases hout with hout | ⟨-, -, -, hout⟩
      · exact ⟨[], by simp [hout], by simp⟩
      · exact ⟨_, hout, by simp⟩
    obtain ⟨l, hout, hl⟩ := hl
    rcases h with ⟨-, h⟩ | ⟨g, rfl, h⟩
    · rw [h]
      refine ⟨c1, hver', ?_, fun _ => by rw [hsm]; exact hver.peerkey, l, hout,
        fun o ho => .inl (hl o ho)⟩
      rw [hsm]
      exact .refl _
    · rw [h]
      exact handled_dispatch hver' hsm hout hl hpeer (hopen g rfl) hmic
  · rcases h with h | ⟨h, -⟩
    · rw [h]
      exact .inl ⟨rfl, rfl⟩
    · exact absurd h (by simp)

end FromAuthenticator

section FromPeer

variable {cr : Crypto} {env : Env} {src : Addr} {f : EapolKey} {c c' : Ctx} {k : ℕ} {p : Peer}

theorem rxPeer_some {sm : Sm} (h : rxPeer sm src = some k) :
    ∃ p, sm.peerkey[k]? = some p ∧ p.addr = src := by
  obtain ⟨hk, hp, -⟩ := List.findIdx?_eq_some_iff_getElem.mp h
  exact ⟨sm.peerkey[k], List.getElem?_eq_getElem hk, by simpa using hp⟩

theorem rxPeer_set {sm : Sm} {q : Peer} (h : rxPeer sm src = some k)
    (hp : sm.peerkey[k]? = some p) (haddr : q.addr = p.addr) :
    rxPeer { sm with peerkey := sm.peerkey.set k q } src = some k := by
  rw [rxPeer] at h ⊢
  obtain ⟨hk, hsrc, hfirst⟩ := List.findIdx?_eq_some_iff_getElem.mp h
  have hp' : sm.peerkey[k] = p := (List.getElem?_eq_some_iff.mp hp).2
  refine List.findIdx?_eq_some_iff_getElem.mpr ⟨by simpa using hk, ?_, fun j hj => ?_⟩
  · rw [hp'] at hsrc
    simpa [haddr] using hsrc
  · have hne : k ≠ j := by omega
    simpa [hne] using hfirst j hj

theorem peerkeyVerifyEapolKeyMic_cases {ver : KeyInfo} {ok : Bool}
    (h : peerkeyVerifyEapolKeyMic cr k p f ver c = (c', ok)) :
    ∃ q : Peer, q.addr = p.addr ∧ c'.sm = { c.sm with peerkey := c.sm.peerkey.set k q } ∧
      (ok = true → c'.out = c.out ++ [.micVerified q.stk.kck f]) ∧
      (ok = false → c'.out = c.out) := by
  have haddr : (initiatorStk cr c.sm p f).addr = p.addr := by
    rw [initiatorStk]
    split <;> rfl
  simp only [peerkeyVerifyEapolKeyMic] at h
  generalize initiatorStk cr c.sm p f = q at h haddr
  split at h
  · obtain ⟨rfl, rfl⟩ := Prod.mk.inj h
    exact ⟨peerVerified f { q with tstkSet := false, stkSet := true, stk := q.tstk }, haddr, rfl,
      fun _ => rfl, by simp⟩
  split at h
  · obtain ⟨rfl, rfl⟩ := Prod.mk.inj h
    exact ⟨peerVerified f q, haddr, rfl, fun _ => rfl, by simp⟩
  · obtain ⟨rfl, rfl⟩ := Prod.mk.inj h
    exact ⟨q, haddr, rfl, by simp, fun _ => rfl⟩

theorem rxVerify_of_some {ok : Bool} (hk : rxPeer c.sm src = some k)
    (hp : c.sm.peerkey[k]? = some p) (h : rxVerify cr src f c = (c', ok)) :
    (f.keyInfo.mic = false ∧ c' = c ∧ ok = true) ∨
    (f.keyInfo.mic = true ∧ ∃ q : Peer, q.addr = p.addr ∧
      c'.sm = { c.sm with peerkey := c.sm.peerkey.set k q } ∧
      (ok = true → c'.out = c.out ++ [.micVerified q.stk.kck f]) ∧
      (ok = false → c'.out = c.out)) := by
  rw [rxVerify] at h
  split at h
  · rename_i hmic
    obtain ⟨rfl, rfl⟩ := Prod.mk.inj h
    exact .inl ⟨by simpa using hmic, rfl, rfl⟩
  · rename_i hmic
    simp only [hk, hp] at h
    exact .inr ⟨by simpa using hmic, peerkeyVerifyEapolKeyMic_cases h⟩

theorem rxVerify_tick {ok : Bool} (h : rxVerify cr src f c = (c', ok)) : c'.tick = c.tick := by
  have hfst : (rxVerify cr src f c).1.tick = c.tick := by
    rw [rxVerify]
    split
    · rfl
    split
    · rw [wpaSupplicantVerifyEapolKeyMic]
      split
      · rfl
      · split <;> rfl
    split
    · rfl
    simp only [peerkeyVerifyEapolKeyMic]
    split
    · rfl
    · split <;> rfl
  rw [h] at hfst
  exact hfst

theorem rxDispatch_of_some (cr : Crypto) (env : Env) (f : EapolKey) (hk : rxPeer c.sm src = some k)
    (hp : c.sm.peerkey[k]? = some p) :
    (rxDispatch cr env src f c).1 =
      if f.keyInfo.keyType then
        if f.keyInfo.keyIndex ≠ 0 then c else peerkeyRxEapol4way cr env k p f f.keyInfo.ver c
      else if f.keyInfo.smkMessage then peerkeyRxEapolSmk cr env src f f.keyInfo.ver c
      else if f.keyInfo.mic then wpaSupplicantProcess1of2 cr env f f.keyInfo.ver c
      else c := by
  simp only [rxDispatch, hk, hp, Option.bind_some, Option.map_some]
  split
  · split <;> rfl
  split
  · rfl
  · split <;> rfl

theorem rxDispatch_kept_of_some (cr : Crypto) (env : Env) (f : EapolKey)
    (hk : rxPeer c.sm src = some k) (hp : c.sm.peerkey[k]? = some p) :
    KeptKeys c.sm (rxDispatch cr env src f c).1.sm := by
  rw [rxDispatch_of_some cr env f hk hp]
  have h0 : Does KeptKeys PeerOut c c := .refl (.refl c.sm)
  split
  · split
    · exact .refl c.sm
    · exact (peerkeyRxEapol4way_does cr env k p f _ h0 hp).rel
  split
  · exact (peerkeyRxEapolSmk_does cr env src f _ h0).rel
  split
  · exact (wpaSupplicantProcess1of2_does cr env f _ c).rel.toKeptKeys
  · exact .refl c.sm

-- No frame from a peer touches the keys and the replay counter of the Authenticator.
theorem wpaSmRxEapol_kept_of_some (cr : Crypto) (env : Env) (data : Octets) (a : Ctx)
    (hk : rxPeer a.sm src = some k) : KeptKeys a.sm (wpaSmRxEapol cr env src data a).1.sm := by
  obtain ⟨p, hp, -⟩ := rxPeer_some hk
  rcases wpaSmRxEapol_cases cr env src a data with h | ⟨f, -, h⟩
  · rw [h.1]
    exact .refl a.sm
  rw [h]
  rcases rxKeyFrame_cases cr env src f a.ask with h | ⟨-, c1, ok, hv, h⟩
  · rw [h]
    exact .refl a.sm
  have hk' : rxPeer a.ask.sm src = some k := hk
  have hp' : a.ask.sm.peerkey[k]? = some p := hp
  -- the entry of the peer as it is behind the check
  have h1 : KeptKeys a.sm c1.sm ∧ rxPeer c1.sm src = some k ∧
      ∃ q, c1.sm.peerkey[k]? = some q := by
    rcases rxVerify_of_some hk' hp' hv with ⟨-, rfl, -⟩ | ⟨-, q, haddr, hsm, -, -⟩
    · exact ⟨.refl a.sm, hk', p, hp'⟩
    rw [hsm]
    refine ⟨(KeptKeys.refl a.sm).peer _, rxPeer_set hk' hp' haddr, q, ?_⟩
    simp [(List.getElem?_eq_some_iff.mp hp').1]
  obtain ⟨hkept, hk1, q, hq⟩ := h1
  rcases h with h | ⟨-, -, c2, r, hd, h⟩
  · rw [h]
    exact hkept
  obtain ⟨hsm, -, -⟩ := rxDecrypt_cases hd
  rcases h with ⟨-, h⟩ | ⟨g, -, h⟩
  · rw [h, hsm]
    exact hkept
  rw [h]
  rw [← hsm] at hk1 hq hkept
  exact hkept.trans (rxDispatch_kept_of_some cr env g hk1 hq)

end FromPeer

end WpaSupplicant.Supplicant

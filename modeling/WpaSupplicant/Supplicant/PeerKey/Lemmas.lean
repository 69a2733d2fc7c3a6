import WpaSupplicant.Supplicant.Lemmas
import WpaSupplicant.Supplicant.PeerKey

namespace WpaSupplicant.Supplicant

open Lib.Octets KeyData

-- The outputs of the frames a station exchanges with its peers: no key goes to the driver, the KEK and
-- the KCK for a rekey offload included, and neither the KEK nor a PTK derivation is involved.
def PeerOut : Out → Prop
  | .setKey _ _ _ _ _ _ _ | .setRekeyOffload _ _ _ | .useKek _ | .micVerified _ _ | .derivePtk _ => False
  | _ => True

theorem SentFrame.peerOut {kck : Option (BitVec 128)} {frame : EapolKey} (o : Out)
    (h : SentFrame kck frame o) : PeerOut o := by
  cases o with
  | micOver k g => trivial
  | etherSend dst g => trivial
  | _ => exact h.elim

theorem KeptKeys.peer {sm sm' : Sm} (h : KeptKeys sm sm') (peerkey : List Peer) :
    KeptKeys sm { sm' with peerkey := peerkey } :=
  h.trans ⟨⟨rfl, rfl, rfl, rfl, rfl⟩, rfl, rfl, rfl, rfl, rfl⟩

theorem KeptKeys.request {sm sm' : Sm} (h : KeptKeys sm sm') (ctr : ReplayCounter) :
    KeptKeys sm { sm' with requestCounter := ctr } :=
  h.trans ⟨⟨rfl, rfl, rfl, rfl, rfl⟩, rfl, rfl, rfl, rfl, rfl⟩

theorem KeptKeys.bssid {sm sm' : Sm} (h : KeptKeys sm sm') (bssid : Addr) :
    KeptKeys sm { sm' with bssid := bssid } :=
  h.trans ⟨⟨rfl, rfl, rfl, rfl, rfl⟩, rfl, rfl, rfl, rfl, rfl⟩

section Smk

variable (cr : Crypto) (env : Env) {a c : Ctx}

theorem setPeer_does {A : Out → Prop} (k : ℕ) (p : Peer) (h : Does KeptKeys A a c) :
    Does KeptKeys A a (setPeer k p c) := h.update _ (h.rel.peer _)

theorem addPeer_does {A : Out → Prop} (p : Peer) (h : Does KeptKeys A a c) :
    Does KeptKeys A a (addPeer p c) := h.update _ (h.rel.peer _)

theorem wpaSupplicantSendSmkError_does (dst peer : Addr) (mui errorType : BitVec 16)
    (ver : KeyInfo) (h : Does KeptKeys PeerOut a c) :
    Does KeptKeys PeerOut a (wpaSupplicantSendSmkError cr env dst peer mui errorType ver c) := by
  simp only [wpaSupplicantSendSmkError]
  split
  · exact h.ask
  have hreq : Does KeptKeys PeerOut a (nextRequestCounter c.ask) :=
    h.ask.update _ (h.rel.request _)
  exact wpaEapolKeySend_does cr env _ ver dst _ hreq hreq.rel.bssid SentFrame.peerOut

theorem wpaSupplicantProcessSmkM2_does (src : Addr) (f : EapolKey) (ver : KeyInfo)
    (h : Does KeptKeys PeerOut a c) :
    Does KeptKeys PeerOut a (wpaSupplicantProcessSmkM2 cr env src f ver c) := by
  simp only [wpaSupplicantProcessSmkM2]
  split
  · exact h
  split
  · split
    · exact h
    split
    · exact wpaSupplicantSendSmkError_does cr env _ _ _ _ ver h
    split
    · exact h.ask
    split
    · exact h.ask.ask
    · refine addPeer_does _ ?_
      exact allocAndSend_does cr env _ ver _ _ h.ask.ask h.rel.bssid SentFrame.peerOut
  · exact h

theorem wpaSupplicantSendStk1of4_does (p : Peer) (h : Does KeptKeys PeerOut a c) :
    Does KeptKeys PeerOut a (wpaSupplicantSendStk1of4 cr env p c).1 := by
  simp only [wpaSupplicantSendStk1of4]
  split
  · exact h.ask
  split
  · exact h.ask.ask
  · dsimp only
    exact wpaEapolKeySend_does cr env none _ p.addr _ h.ask.ask h.rel.bssid SentFrame.peerOut

theorem wpaSupplicantProcessSmkM5_does (src : Addr) (f : EapolKey) (ver : KeyInfo) (p : Peer)
    (addr : Addr) (kde : EapolIeParse) (smk nonce : Octets) (h : Does KeptKeys PeerOut a c) :
    Does KeptKeys PeerOut a
      (wpaSupplicantProcessSmkM5 cr env src f ver p addr kde smk nonce c).1 := by
  unfold wpaSupplicantProcessSmkM5
  split
  · exact h
  split
  · exact h
  simp only []
  split
  · exact h
  · exact wpaSupplicantSendSmkError_does cr env _ _ _ _ ver h

theorem acceptSmk_does (smk lifetime : Octets) (p : Peer) (h : Does KeptKeys PeerOut a c) :
    Does KeptKeys PeerOut a (acceptSmk cr env smk lifetime p c).1 := by
  simp only [acceptSmk]
  split
  · exact wpaSupplicantSendStk1of4_does cr env _ h
  · exact h

theorem wpaSupplicantProcessSmkM45_does (src : Addr) (f : EapolKey) (ver : KeyInfo)
    (h : Does KeptKeys PeerOut a c) :
    Does KeptKeys PeerOut a (wpaSupplicantProcessSmkM45 cr env src f ver c) := by
  simp only [wpaSupplicantProcessSmkM45]
  split
  · exact h
  split
  · rename_i addr nonce smk lifetime _ _ _ _
    split
    · exact h
    split
    · exact h
    split
    · exact h
    rename_i k hk p hp
    generalize hr : (if p.initiator = true then _ else _ : Ctx × Peer × Bool) = r
    have h1 : Does KeptKeys PeerOut a r.1 := by
      rw [← hr]
      split
      · exact wpaSupplicantProcessSmkM5_does cr env _ _ _ _ _ _ _ _ h
      · exact h
    split
    · exact setPeer_does _ _ h1
    · exact setPeer_does _ _ (acceptSmk_does cr env _ _ _ h1)
  · exact h

theorem peerkeyRxEapolSmk_does (src : Addr) (f : EapolKey) (ver : KeyInfo)
    (h : Does KeptKeys PeerOut a c) :
    Does KeptKeys PeerOut a (peerkeyRxEapolSmk cr env src f ver c) := by
  rw [peerkeyRxEapolSmk]
  split
  · exact h
  split
  · exact wpaSupplicantProcessSmkM2_does cr env src f ver h
  · exact wpaSupplicantProcessSmkM45_does cr env src f ver h

end Smk

section Stk

variable (cr : Crypto) (env : Env) {a c : Ctx}

theorem wpaSupplicantSendStk3of4_does (p : Peer) (h : Does KeptKeys PeerOut a c) :
    Does KeptKeys PeerOut a (wpaSupplicantSendStk3of4 cr env p c).1 := by
  simp only [wpaSupplicantSendStk3of4]
  split
  · exact h.ask
  · dsimp only
    exact wpaEapolKeySend_does cr env _ _ p.addr _ h.ask h.rel.bssid SentFrame.peerOut

theorem wpaSupplicantProcessStk1of4_does (k : ℕ) (p : Peer) (f : EapolKey) (ver : KeyInfo)
    (h : Does KeptKeys PeerOut a c) :
    Does KeptKeys PeerOut a (wpaSupplicantProcessStk1of4 cr env k p f ver c) := by
  simp only [wpaSupplicantProcessStk1of4]
  split
  · exact h
  split
  · exact h.ask
  rename_i r hr
  generalize ({ p with pnonce := _, tstk := _, tstkSet := true } : Peer) = q
  have h1 := setPeer_does k q h.ask
  split
  · exact h1.ask
  generalize hs : wpaSupplicantSend2of4 cr env _ f ver _ _ _ (setPeer k q c.ask).ask = s
  have h2 : Does KeptKeys PeerOut a s.1 := by
    rw [← hs]
    exact allocAndSend_does cr env _ ver _ _ h1.ask h1.rel.bssid SentFrame.peerOut
  obtain ⟨c', ok⟩ := s
  cases ok with
  | false => exact h2
  | true => exact setPeer_does _ _ h2

theorem wpaSupplicantProcessStk2of4_does (k : ℕ) (p : Peer) (f : EapolKey)
    (h : Does KeptKeys PeerOut a c) :
    Does KeptKeys PeerOut a (wpaSupplicantProcessStk2of4 cr env k p f c) := by
  simp only [wpaSupplicantProcessStk2of4]
  split
  · exact h
  · exact setPeer_does _ _ (wpaSupplicantSendStk3of4_does cr env _ h)

-- A key of the peer `p`, as one of the two STK handlers gives it to the driver
def StkKey (p : Peer) (key : Octets) : Prop := key = stkKey p ∨ ∃ len, key = p.stk.tkOctets len

def StkOut (p : Peer) : Out → Prop
  | .setKey kind _ addr _ _ _ key => kind = .stk ∧ addr = some p.addr ∧ StkKey p key
  | .useKek _ | .micVerified _ _ | .derivePtk _ => False
  | _ => True

theorem PeerOut.stkOut {p : Peer} (o : Out) (h : PeerOut o) : StkOut p o := by
  cases o with
  | setKey kind alg addr idx setTx seq key => exact h.elim
  | useKek kek => exact h.elim
  | micVerified kck f => exact h.elim
  | derivePtk input => exact h.elim
  | setRekeyOffload kek kck ctr => exact h.elim
  | _ => trivial

def KeepsStk (k : ℕ) (p : Peer) (c : Ctx) : Prop :=
  ∃ q, c.sm.peerkey[k]? = some q ∧ q.addr = p.addr ∧ q.stk = p.stk ∧ q.cipher = p.cipher

theorem wpaSupplicantUpdateSmkLifetime_eq (kde : EapolIeParse) (p : Peer) :
    ∃ lifetime, wpaSupplicantUpdateSmkLifetime kde p = { p with lifetime := lifetime } := by
  rw [wpaSupplicantUpdateSmkLifetime]
  split
  · exact ⟨p.lifetime, rfl⟩
  split
  · exact ⟨p.lifetime, rfl⟩
  · exact ⟨_, rfl⟩

theorem getElem?_setPeer {k : ℕ} (p : Peer) (hk : k < c.sm.peerkey.length) :
    (setPeer k p c).sm.peerkey[k]? = some p := by
  simp [setPeer, hk]

theorem sendDest_peerkey (dest : Addr) (c : Ctx) :
    (sendDest env dest c).2.sm.peerkey = c.sm.peerkey := by
  rw [sendDest]
  split
  · split <;> rfl
  · rfl

theorem wpaEapolKeySend_peerkey (kck : Option (BitVec 128)) (ver : KeyInfo) (dest : Addr)
    (frame : EapolKey) (c : Ctx) :
    (wpaEapolKeySend cr env kck ver dest frame c).sm.peerkey = c.sm.peerkey := by
  rw [wpaEapolKeySend]
  cases kck with
  | none => exact sendDest_peerkey env dest c
  | some k =>
    simp only []
    split
    · exact sendDest_peerkey env dest c
    · exact sendDest_peerkey env dest c

theorem allocAndSend_peerkey (kck : Option (BitVec 128)) (ver : KeyInfo) (dest : Addr)
    (frame : EapolKey) (c : Ctx) :
    (allocAndSend cr env kck ver dest frame c).1.sm.peerkey = c.sm.peerkey := by
  simp only [allocAndSend]
  split
  · rfl
  · exact wpaEapolKeySend_peerkey cr env kck ver dest frame c.ask

theorem wpaSupplicantProcessStk3of4_does (k : ℕ) (p : Peer) (f : EapolKey) (ver : KeyInfo)
    (h : Does KeptKeys (StkOut p) a c) (hp : c.sm.peerkey[k]? = some p) :
    Does KeptKeys (StkOut p) a (wpaSupplicantProcessStk3of4 cr env k p f ver c) ∧
      KeepsStk k p (wpaSupplicantProcessStk3of4 cr env k p f ver c) := by
  have hk : k < c.sm.peerkey.length := (List.getElem?_eq_some_iff.mp hp).1
  simp only [wpaSupplicantProcessStk3of4]
  split
  · exact ⟨h, p, hp, rfl, rfl, rfl⟩
  obtain ⟨lifetime, hq⟩ := wpaSupplicantUpdateSmkLifetime_eq
    (wpaSupplicantParseIes (keyDataOf f)).2 p
  rw [hq]
  generalize hq' : ({ p with lifetime := lifetime } : Peer) = q
  have haddr : q.addr = p.addr := by rw [← hq']
  have hstk : q.stk = p.stk := by rw [← hq']
  have hcipher : q.cipher = p.cipher := by rw [← hq']
  have h1 := setPeer_does k q h
  have hget := getElem?_setPeer q hk
  have h2 : Does KeptKeys (StkOut p) a
      (wpaSupplicantSend4of4 cr env q.addr f ver q.stk (setPeer k q c)).1 :=
    allocAndSend_does cr env _ ver _ _ h1 h1.rel.bssid
      fun o ho => PeerOut.stkOut o (SentFrame.peerOut o ho)
  have hget2 : (wpaSupplicantSend4of4 cr env q.addr f ver q.stk
      (setPeer k q c)).1.sm.peerkey[k]? = some q := by
    rw [wpaSupplicantSend4of4, allocAndSend_peerkey, hget]
  split
  · rename_i c' hc
    rw [hc] at h2 hget2
    exact ⟨h2, q, hget2, haddr, hstk, hcipher⟩
  rename_i c' hc
  rw [hc] at h2 hget2
  refine ⟨h2.ask.emit _ ⟨rfl, by rw [haddr], .inl ?_⟩, q, hget2, haddr, hstk, hcipher⟩
  rw [stkKey, stkKey, hstk, hcipher]

theorem peerkeyRxEapol4way_does (k : ℕ) (p : Peer) (f : EapolKey) (ver : KeyInfo)
    (h : Does KeptKeys PeerOut a c) (hp : c.sm.peerkey[k]? = some p) :
    Does KeptKeys (StkOut p) a (peerkeyRxEapol4way cr env k p f ver c) := by
  have h' := h.mono id (PeerOut.stkOut (p := p))
  rw [peerkeyRxEapol4way]
  split
  · exact (wpaSupplicantProcessStk3of4_does cr env k p f ver h' hp).1
  split
  · exact (wpaSupplicantProcessStk1of4_does cr env k p f ver h).mono id PeerOut.stkOut
  split
  · exact h'.ask.emit _ ⟨rfl, rfl, .inr ⟨_, rfl⟩⟩
  · exact (wpaSupplicantProcessStk2of4_does cr env k p f h).mono id PeerOut.stkOut

theorem peerkeyRxEapol4way_keepsStk (k : ℕ) (p : Peer) (f : EapolKey) (ver : KeyInfo) (c : Ctx)
    (hmic : f.keyInfo.mic = true) (hp : c.sm.peerkey[k]? = some p) :
    KeepsStk k p (peerkeyRxEapol4way cr env k p f ver c) := by
  have hk : k < c.sm.peerkey.length := (List.getElem?_eq_some_iff.mp hp).1
  rw [peerkeyRxEapol4way, hmic, Bool.true_and]
  split
  · exact (wpaSupplicantProcessStk3of4_does cr env k p f ver
      (.refl (.refl c.sm) : Does KeptKeys (StkOut p) c c) hp).2
  split
  · exact ⟨p, hp, rfl, rfl, rfl⟩
  simp only [wpaSupplicantProcessStk2of4]
  split
  · exact ⟨p, hp, rfl, rfl, rfl⟩
  obtain ⟨lifetime, hq⟩ := wpaSupplicantUpdateSmkLifetime_eq
    (wpaSupplicantParseIes (keyDataOf f)).2 p
  rw [hq]
  simp only [wpaSupplicantSendStk3of4]
  split
  · exact ⟨_, getElem?_setPeer _ hk, rfl, rfl, rfl⟩
  refine ⟨_, getElem?_setPeer _ ?_, rfl, rfl, rfl⟩
  rw [wpaEapolKeySend_peerkey]
  exact hk

end Stk

end WpaSupplicant.Supplicant

import WpaSupplicant.Supplicant.Handshake

namespace WpaSupplicant.Supplicant

open Lib.Octets Lib.Effect KeyData

-- Effects on the state machine alone. The lemmas below extend what has been done since `a`
-- over one more function.
def Does (R : Sm → Sm → Prop) (A : Out → Prop) (a c : Ctx) : Prop :=
  Emits Ctx.out (fun x y => R x.sm y.sm) A a c

namespace Does

variable {R : Sm → Sm → Prop} {A : Out → Prop} {a c : Ctx}

theorem refl (hR : R a.sm a.sm) : Does R A a a := Emits.same hR rfl

theorem ask (h : Does R A a c) : Does R A a c.ask := ⟨h.rel, h.emitted⟩

theorem emit (h : Does R A a c) (o : Out) (ho : A o) : Does R A a (c.emit o) := by
  obtain ⟨l, hl, hall⟩ := h.emitted
  refine ⟨h.rel, l ++ [o], ?_, ?_⟩
  · rw [Ctx.emit, hl, List.append_assoc]
  · intro x hx
    rcases List.mem_append.mp hx with hx | hx
    · exact hall x hx
    · rw [List.mem_singleton.mp hx]
      exact ho

theorem update (h : Does R A a c) (sm : Sm) (hR : R a.sm sm) : Does R A a { c with sm := sm } :=
  ⟨hR, h.emitted⟩

theorem andThen {r : Ctx × Bool} {f : Ctx → Ctx × Bool} (h : Does R A a r.1)
    (hf : r.2 = true → Does R A a (f r.1).1) : Does R A a (Lib.Effect.andThen r f).1 := by
  rw [Lib.Effect.andThen]
  split
  · rename_i hok
    exact hf hok
  · exact h

theorem mono {S : Sm → Sm → Prop} {B : Out → Prop} (h : Does R A a c) (hR : R a.sm c.sm → S a.sm c.sm)
    (hA : ∀ o, A o → B o) : Does S B a c := Emits.mono hR hA h

theorem orDeauthenticate {r : Ctx × Bool} (h : Does R A a r.1) (hA : A .deauthenticate) :
    Does R A a (orDeauthenticate r) := by
  rw [Supplicant.orDeauthenticate]
  split
  · exact h
  · exact h.emit _ hA

end Does

-- What every handler leaves alone: the PTK, the replay counter, and the configuration up to the
-- IEs of the beacon
structure KeptPtk (sm sm' : Sm) : Prop where
  ptk : sm'.ptk = sm.ptk
  ptkSet : sm'.ptkSet = sm.ptkSet
  rxReplayCounter : sm'.rxReplayCounter = sm.rxReplayCounter
  rxReplayCounterSet : sm'.rxReplayCounterSet = sm.rxReplayCounterSet
  conf : sm'.conf =
    { sm.conf with apWpaIe := sm'.conf.apWpaIe, apRsnIe := sm'.conf.apRsnIe }

structure KeptKeys (sm sm' : Sm) : Prop extends KeptPtk sm sm' where
  pmk : sm'.pmk = sm.pmk
  tptk : sm'.tptk = sm.tptk
  tptkSet : sm'.tptkSet = sm.tptkSet
  snonce : sm'.snonce = sm.snonce
  anonce : sm'.anonce = sm.anonce

-- The handlers of message 3/4 and of the group handshake leave the peers alone, too.
structure Kept (sm sm' : Sm) : Prop extends KeptKeys sm sm' where
  peerkey : sm'.peerkey = sm.peerkey

theorem KeptPtk.refl (sm : Sm) : KeptPtk sm sm := ⟨rfl, rfl, rfl, rfl, rfl⟩

theorem KeptPtk.trans {x y z : Sm} (h : KeptPtk x y) (h' : KeptPtk y z) : KeptPtk x z where
  ptk := h'.ptk.trans h.ptk
  ptkSet := h'.ptkSet.trans h.ptkSet
  rxReplayCounter := h'.rxReplayCounter.trans h.rxReplayCounter
  rxReplayCounterSet := h'.rxReplayCounterSet.trans h.rxReplayCounterSet
  conf := by rw [h'.conf, h.conf]

theorem KeptKeys.refl (sm : Sm) : KeptKeys sm sm := ⟨KeptPtk.refl sm, rfl, rfl, rfl, rfl, rfl⟩

theorem KeptKeys.trans {x y z : Sm} (h : KeptKeys x y) (h' : KeptKeys y z) : KeptKeys x z where
  toKeptPtk := h.toKeptPtk.trans h'.toKeptPtk
  pmk := h'.pmk.trans h.pmk
  tptk := h'.tptk.trans h.tptk
  tptkSet := h'.tptkSet.trans h.tptkSet
  snonce := h'.snonce.trans h.snonce
  anonce := h'.anonce.trans h.anonce

theorem Kept.refl (sm : Sm) : Kept sm sm := ⟨KeptKeys.refl sm, rfl⟩

theorem Kept.trans {x y z : Sm} (h : Kept x y) (h' : Kept y z) : Kept x z :=
  ⟨h.toKeptKeys.trans h'.toKeptKeys, h'.peerkey.trans h.peerkey⟩

theorem Kept.bssid {sm sm' : Sm} (h : Kept sm sm') (bssid : Addr) :
    Kept sm { sm' with bssid := bssid } :=
  h.trans ⟨⟨⟨rfl, rfl, rfl, rfl, rfl⟩, rfl, rfl, rfl, rfl, rfl⟩, rfl⟩

theorem KeptKeys.newFrame {sm sm' : Sm} (h : KeptKeys sm sm') : newFrame sm' = newFrame sm := by
  unfold Supplicant.newFrame
  rw [h.conf]

theorem KeptKeys.keyDescriptorType {sm sm' : Sm} (h : KeptKeys sm sm') :
    keyDescriptorType sm' = keyDescriptorType sm := by
  rw [Supplicant.keyDescriptorType, Supplicant.keyDescriptorType, h.conf]

theorem KeptKeys.replyKeyLength {sm sm' : Sm} (h : KeptKeys sm sm') (f : EapolKey) :
    replyKeyLength sm' f = replyKeyLength sm f := by
  rw [Supplicant.replyKeyLength, Supplicant.replyKeyLength, h.conf]

section Send

variable (cr : Crypto) (env : Env) {R : Sm → Sm → Prop} {A : Out → Prop} {a c : Ctx}

def SentFrame (kck : Option (BitVec 128)) (frame : EapolKey) : Out → Prop
  | .micOver k g => kck = some k ∧ ∃ mic, g = { frame with keyMic := mic }
  | .etherSend _ _ => True
  | _ => False

theorem sendDest_does (dest : Addr) (h : Does R A a c)
    (hR : ∀ bssid, R a.sm { c.sm with bssid := bssid }) : Does R A a (sendDest env dest c).2 := by
  rw [sendDest]
  split
  · split
    · exact h.ask
    · exact h.ask.update _ (hR _)
  · exact h

theorem wpaEapolKeySend_does (kck : Option (BitVec 128)) (ver : KeyInfo) (dest : Addr)
    (frame : EapolKey) (h : Does R A a c) (hR : ∀ bssid, R a.sm { c.sm with bssid := bssid })
    (hA : ∀ o, SentFrame kck frame o → A o) :
    Does R A a (wpaEapolKeySend cr env kck ver dest frame c) := by
  have hd := sendDest_does env dest h hR
  rw [wpaEapolKeySend]
  cases kck with
  | none => exact hd.emit _ (hA _ trivial)
  | some k =>
    simp only []
    split
    · exact hd
    rename_i mic hmic
    have hm := hd.emit (.micOver k { frame with keyMic := mic }) (hA _ ⟨rfl, mic, rfl⟩)
    exact .emit hm _ (hA _ trivial)

theorem allocAndSend_does (kck : Option (BitVec 128)) (ver : KeyInfo) (dest : Addr)
    (frame : EapolKey) (h : Does R A a c) (hR : ∀ bssid, R a.sm { c.sm with bssid := bssid })
    (hA : ∀ o, SentFrame kck frame o → A o) :
    Does R A a (allocAndSend cr env kck ver dest frame c).1 := by
  simp only [allocAndSend]
  split
  · exact h.ask
  · exact wpaEapolKeySend_does cr env kck ver dest frame h.ask hR hA

end Send

-- Message 4/4 and group message 2/2 as the Supplicant answers a frame
def msg4 (sm : Sm) (f : EapolKey) (ver : KeyInfo) : EapolKey :=
  newFrame sm (keyDescriptorType sm) (KeyInfo.flag f.keyInfo.secure KeyInfo.secureBit ||| ver |||
    KeyInfo.keyTypeBit ||| KeyInfo.micBit) (replyKeyLength sm f) f.replayCounter 0 []

def groupMsg2 (sm : Sm) (f : EapolKey) (ver : KeyInfo) : EapolKey :=
  newFrame sm (keyDescriptorType sm) ((f.keyInfo &&& KeyInfo.keyIndexMask) ||| ver |||
    KeyInfo.micBit ||| KeyInfo.secureBit) (replyKeyLength sm f) f.replayCounter 0 []

theorem KeptKeys.msg4 {sm sm' : Sm} (h : KeptKeys sm sm') (f : EapolKey) (ver : KeyInfo) :
    msg4 sm' f ver = msg4 sm f ver := by
  rw [Supplicant.msg4, Supplicant.msg4, h.newFrame, h.keyDescriptorType, h.replyKeyLength]

theorem KeptKeys.groupMsg2 {sm sm' : Sm} (h : KeptKeys sm sm') (f : EapolKey) (ver : KeyInfo) :
    groupMsg2 sm' f ver = groupMsg2 sm f ver := by
  rw [Supplicant.groupMsg2, Supplicant.groupMsg2, h.newFrame, h.keyDescriptorType,
    h.replyKeyLength]

-- The GTK as `wpa_supplicant_install_gtk` hands it to the driver
def gtkInstalled (sm : Sm) (gtk : Octets) : Octets :=
  if sm.conf.groupCipher = .tkip then gtk.take 16 ++ (gtk.drop 24).take 8 ++ (gtk.drop 16).take 8
  else gtk

theorem KeptKeys.gtkInstalled {sm sm' : Sm} (h : KeptKeys sm sm') (gtk : Octets) :
    gtkInstalled sm' gtk = gtkInstalled sm gtk := by
  rw [Supplicant.gtkInstalled, Supplicant.gtkInstalled, h.conf]

-- What a handler may hand out for the frame `f` with the fields `ie` in its key data, when it
-- answers with `reply`: a pairwise key only from the PTK and for the known ANonce, a group key
-- of RSN only from encrypted key data, a MIC only under the PTK
def HandlerOut (sm : Sm) (f : EapolKey) (ie : EapolIeParse) (reply : EapolKey) : Out → Prop
  | .setKey .ptk _ addr idx _ _ key =>
    sm.anonce = f.keyNonce ∧ addr ≠ none ∧ idx = 0 ∧ ∃ len, key = sm.ptk.tkOctets len
  | .setKey .gtk _ _ idx _ _ key =>
    sm.conf.proto = .rsn → f.keyInfo.encrKeyData = true ∧ ∃ gtk, ie.gtk = some gtk ∧
      idx = gtkKeyidx gtk ∧ key = gtkInstalled sm (gtk.drop 2)
  | .setKey .igtk _ _ _ _ _ key =>
    f.keyInfo.encrKeyData = true ∧ ∃ igtk, ie.igtk = some igtk ∧ key = (igtk.drop 8).take 16
  | .setKey .stk _ _ _ _ _ _ => False
  | .micOver k g => k = sm.ptk.kck ∧ ∃ mic, g = { reply with keyMic := mic }
  | .useKek kek => kek = sm.ptk.kek
  | .micVerified _ _ | .derivePtk _ => False
  | _ => True

def Notice : Out → Prop
  | .setState _ | .deauthenticate | .disassociate | .setProtection _ _ | .portValid
  | .eapSuccess | .setRekeyOffload _ _ _ => True
  | _ => False

theorem Notice.handlerOut {sm : Sm} {f : EapolKey} {ie : EapolIeParse} {reply : EapolKey} (o : Out)
    (h : Notice o) : HandlerOut sm f ie reply o := by
  cases o with
  | setKey kind alg addr idx setTx seq key => exact h.elim
  | micOver k g => exact h.elim
  | useKek kek => exact h.elim
  | micVerified k g => exact h.elim
  | derivePtk input => exact h.elim
  | _ => trivial

section Keys

variable (cr : Crypto) (env : Env) {f : EapolKey} {ie : EapolIeParse} {reply : EapolKey}
  {a c : Ctx}

theorem reply_does {frame : EapolKey} (ver : KeyInfo) (dest : Addr)
    (h : Does Kept (HandlerOut a.sm f ie reply) a c) (hreply : frame = reply) :
    Does Kept (HandlerOut a.sm f ie reply) a
      (allocAndSend cr env (some c.sm.ptk.kck) ver dest frame c).1 := by
  subst hreply
  refine allocAndSend_does cr env _ ver dest _ h h.rel.bssid fun o ho => ?_
  cases o with
  | micOver k g =>
    obtain ⟨hk, hg⟩ := ho
    rw [Option.some.injEq] at hk
    exact ⟨by rw [← hk, h.rel.ptk], hg⟩
  | etherSend dst g => trivial
  | _ => exact ho.elim

variable {A : Out → Prop}

theorem wpaSupplicantKeyNegComplete_does {R : Sm → Sm → Prop} (addr : Addr) (secure : Bool)
    (h : Does R A a c) (hA : ∀ o, Notice o → A o) :
    Does R A a (wpaSupplicantKeyNegComplete addr secure c) := by
  have h1 := h.emit (.setState .completed) (hA _ trivial)
  have h2 := h1.emit (.setProtection addr true) (hA _ trivial)
  have h3 := h2.emit .portValid (hA _ trivial)
  simp only [wpaSupplicantKeyNegComplete]
  split
  · split
    · exact h3.emit .eapSuccess (hA _ trivial)
    · exact h3
  · exact h1

theorem wpaSupplicantInstallPtk_does (h : Does Kept (HandlerOut a.sm f ie reply) a c)
    (hnonce : a.sm.anonce = f.keyNonce) :
    Does Kept (HandlerOut a.sm f ie reply) a (wpaSupplicantInstallPtk env f c).1 := by
  have hptk := h.rel.ptk
  have hset (alg : KeyAlg) (seq : Octets) (len : ℕ) :
      Does Kept (HandlerOut a.sm f ie reply) a
        (wpaSmSetKey env .ptk alg (some c.sm.bssid) 0 true seq (c.sm.ptk.tkOctets len) c).1 :=
    h.ask.emit _ ⟨hnonce, by simp, rfl, len, by rw [hptk]⟩
  rw [wpaSupplicantInstallPtk]
  split
  · refine (hset _ _ 16).andThen fun _ => ?_
    exact (hset _ _ 16).update _
      ((hset _ _ 16).rel.trans ⟨⟨⟨rfl, rfl, rfl, rfl, rfl⟩, rfl, rfl, rfl, rfl, rfl⟩, rfl⟩)
  · refine (hset _ _ 32).andThen fun _ => ?_
    exact (hset _ _ 32).update _
      ((hset _ _ 32).rel.trans ⟨⟨⟨rfl, rfl, rfl, rfl, rfl⟩, rfl, rfl, rfl, rfl, rfl⟩, rfl⟩)
  · exact h
  · exact h

theorem wpaSupplicantInstallGtk_does (gd : GtkData) (keyRsc : BitVec 64) (h : Does Kept A a c)
    (hA : ∀ addr tx, A (.setKey .gtk (.alg gd.alg) addr gd.keyidx tx
      ((putBE 8 keyRsc).take gd.keyRscLen) (gtkInstalled a.sm gd.gtk))) :
    Does Kept A a (wpaSupplicantInstallGtk env gd keyRsc c).1 := by
  rw [← h.rel.gtkInstalled] at hA
  simp only [wpaSupplicantInstallGtk]
  split
  · exact h.ask.emit _ (hA _ _)
  · exact h.ask.emit _ (hA _ _)

theorem wpaSupplicantPairwiseGtk_does (gtk : Octets)
    (h : Does Kept (HandlerOut a.sm f ie reply) a c) (hgtk : ie.gtk = some gtk)
    (hencr : f.keyInfo.encrKeyData = true) :
    Does Kept (HandlerOut a.sm f ie reply) a (wpaSupplicantPairwiseGtk env f gtk c).1 := by
  rw [wpaSupplicantPairwiseGtk]
  split
  · exact h
  split
  · exact h
  have h1 (gd : GtkData) (hidx : gd.keyidx = gtkKeyidx gtk) (hkey : gd.gtk = gtk.drop 2) :
      Does Kept (HandlerOut a.sm f ie reply) a (wpaSupplicantInstallGtk env gd f.keyRsc c).1 :=
    wpaSupplicantInstallGtk_does env gd f.keyRsc h fun addr tx =>
      fun _ => ⟨hencr, gtk, hgtk, hidx, by rw [hkey]⟩
  refine (h1 _ rfl rfl).andThen fun _ => ?_
  exact wpaSupplicantKeyNegComplete_does _ _ (h1 _ rfl rfl) Notice.handlerOut

theorem ieee80211wSetKeys_does (h : Does Kept (HandlerOut a.sm f ie reply) a c)
    (hencr : ie.igtk.isSome = true → f.keyInfo.encrKeyData = true) :
    Does Kept (HandlerOut a.sm f ie reply) a (ieee80211wSetKeys env ie c).1 := by
  rw [ieee80211wSetKeys]
  split
  · exact h
  split
  · exact h
  rename_i igtk higtk
  simp only []
  split
  · exact h
  · exact h.ask.emit _ ⟨hencr (by simp [higtk]), igtk, higtk, rfl⟩

theorem wpaSupplicantValidateIe_does (ie : EapolIeParse) (h : Does Kept A a c) (hA : ∀ o, Notice o → A o) :
    Does Kept A a (wpaSupplicantValidateIe env ie c).1 := by
  rw [wpaSupplicantValidateIe]
  generalize hc1 : (if c.sm.conf.apWpaIe.isNone = true ∧ c.sm.conf.apRsnIe.isNone = true then _
    else c) = c1
  have h1 : Does Kept A a c1 := by
    rw [← hc1]
    split
    · split
      · exact h.ask
      · exact h.ask.update _ (h.rel.trans ⟨⟨⟨rfl, rfl, rfl, rfl, rfl⟩, rfl, rfl, rfl, rfl, rfl⟩, rfl⟩)
    · exact h
  split
  · exact h1.emit .disassociate (hA _ trivial)
  split
  · exact h1.emit .disassociate (hA _ trivial)
  split
  · exact h1.emit .disassociate (hA _ trivial)
  · exact h1

theorem install3of4_does (h : Does Kept (HandlerOut a.sm f ie reply) a c)
    (hok : keyData3of4Ok f ie = true) (hnonce : a.sm.anonce = f.keyNonce) :
    Does Kept (HandlerOut a.sm f ie reply) a (install3of4 env f ie c).1 := by
  have hgtk (hi : ie.gtk.isSome = true) : f.keyInfo.encrKeyData = true := by
    by_contra hno
    simp [keyData3of4Ok, hi, hno] at hok
  have higtk (hi : ie.igtk.isSome = true) : f.keyInfo.encrKeyData = true := by
    by_contra hno
    simp [keyData3of4Ok, hi, hno] at hok
  rw [install3of4]
  have h1 := h.update { c.sm with renewSnonce := true }
    (h.rel.trans ⟨⟨⟨rfl, rfl, rfl, rfl, rfl⟩, rfl, rfl, rfl, rfl, rfl⟩, rfl⟩)
  have h2 : Does Kept (HandlerOut a.sm f ie reply) a
      (if f.keyInfo.install = true then
        wpaSupplicantInstallPtk env f { c with sm := { c.sm with renewSnonce := true } }
      else ({ c with sm := { c.sm with renewSnonce := true } }, true)).1 := by
    split
    · exact wpaSupplicantInstallPtk_does env h1 hnonce
    · exact h1
  refine h2.andThen fun _ => ?_
  generalize (if f.keyInfo.install = true then _ else _ : Ctx × Bool).1 = c2 at h2 ⊢
  have h3 : Does Kept (HandlerOut a.sm f ie reply) a
      ((if f.keyInfo.secure = true then
        (c2.emit (.setProtection c2.sm.bssid false)).emit .portValid else c2).emit
        (.setState .groupHandshake)) := by
    split
    · exact ((h2.emit (.setProtection c2.sm.bssid false) trivial).emit .portValid trivial).emit
        (.setState .groupHandshake) trivial
    · exact .emit h2 _ trivial
  simp only []
  generalize (if f.keyInfo.secure = true then _ else c2 : Ctx).emit (.setState .groupHandshake) = c3
    at h3 ⊢
  -- the rest, after the group key was dealt with
  have hrest (r : Ctx × Bool) (h4 : Does Kept (HandlerOut a.sm f ie reply) a r.1) :
      Does Kept (HandlerOut a.sm f ie reply) a (andThen r fun c =>
        andThen (ieee80211wSetKeys env ie c) fun c =>
          (c.emit (.setRekeyOffload c.sm.ptk.kek c.sm.ptk.kck c.sm.rxReplayCounter), true)).1 := by
    have h5 := ieee80211wSetKeys_does env h4 higtk
    refine h4.andThen fun _ => ?_
    refine h5.andThen fun _ => ?_
    exact .emit h5 _ trivial
  cases hg : ie.gtk with
  | none => exact hrest _ h3
  | some gtk =>
    exact hrest _ (wpaSupplicantPairwiseGtk_does env gtk h3 hg (hgtk (by simp [hg])))

theorem wpaSupplicantProcess3of4_does (f : EapolKey) (ver : KeyInfo) (a : Ctx) :
    Does Kept (HandlerOut a.sm f (wpaSupplicantParseIes (keyDataOf f)).2 (msg4 a.sm f ver)) a
      (wpaSupplicantProcess3of4 cr env f ver a) := by
  have h0 : Does Kept (HandlerOut a.sm f (wpaSupplicantParseIes (keyDataOf f)).2
      (msg4 a.sm f ver)) a a := .refl (.refl a.sm)
  rw [wpaSupplicantProcess3of4]
  refine Does.orDeauthenticate ?_ trivial
  have h1 := h0.emit (.setState .fourWayHandshake) trivial
  refine Does.andThen h1 fun hdata => ?_
  have h2 := wpaSupplicantValidateIe_does env (wpaSupplicantParseIes (keyDataOf f)).2 h1
    Notice.handlerOut
  refine Does.andThen h2 fun _ => ?_
  generalize (wpaSupplicantValidateIe env _ _).1 = c2 at h2 ⊢
  refine Does.andThen h2 fun hnonce => Does.andThen h2 fun _ => ?_
  have h3 := reply_does cr env ver c2.sm.bssid h2 (h2.rel.msg4 f ver)
  refine Does.andThen h3 fun _ => install3of4_does env h3 hdata ?_
  rw [← h2.rel.anonce]
  exact of_decide_eq_true hnonce

theorem wpaSupplicantProcess1of2Rsn_does (h : Does Kept (HandlerOut a.sm f
      (wpaSupplicantParseIes (keyDataOf f)).2 reply) a c) :
    Does Kept (HandlerOut a.sm f (wpaSupplicantParseIes (keyDataOf f)).2 reply) a
        (wpaSupplicantProcess1of2Rsn env f c).1 ∧
      ∀ gd, (wpaSupplicantProcess1of2Rsn env f c).2 = some gd → f.keyInfo.encrKeyData = true ∧
        ∃ gtk, (wpaSupplicantParseIes (keyDataOf f)).2.gtk = some gtk ∧
          gd.keyidx = gtkKeyidx gtk ∧ gd.gtk = gtk.drop 2 := by
  simp only [wpaSupplicantProcess1of2Rsn]
  split
  · exact ⟨h, by simp⟩
  rename_i gtk hgtk
  split
  · exact ⟨h, by simp⟩
  rename_i hencr
  have hencr : f.keyInfo.encrKeyData = true := by simpa using hencr
  split
  · exact ⟨h, by simp⟩
  split
  · exact ⟨h, by simp⟩
  refine ⟨ieee80211wSetKeys_does env h fun _ => hencr, fun gd hgd => ?_⟩
  rw [Option.some.injEq] at hgd
  exact ⟨hencr, gtk, hgtk, by rw [← hgd], by rw [← hgd]⟩

theorem wpaSupplicantProcess1of2Wpa_does (ver : KeyInfo)
    (h : Does Kept (HandlerOut a.sm f ie reply) a c) :
    Does Kept (HandlerOut a.sm f ie reply) a (wpaSupplicantProcess1of2Wpa cr f ver c).1 := by
  have hkek := Does.emit h (.useKek c.sm.ptk.kek) (by rw [h.rel.ptk]; rfl)
  simp only [wpaSupplicantProcess1of2Wpa]
  split
  · exact h
  split
  · exact h
  split
  · split
    · exact h
    · exact hkek
  split
  · split
    · exact h
    · exact hkek
  · exact h

theorem wpaSupplicantProcess1of2_does (f : EapolKey) (ver : KeyInfo) (a : Ctx) :
    Does Kept (HandlerOut a.sm f (wpaSupplicantParseIes (keyDataOf f)).2 (groupMsg2 a.sm f ver)) a
      (wpaSupplicantProcess1of2 cr env f ver a) := by
  have h0 : Does Kept (HandlerOut a.sm f (wpaSupplicantParseIes (keyDataOf f)).2
      (groupMsg2 a.sm f ver)) a a.ask := Does.ask (.refl (.refl a.sm))
  -- the key of the message, whichever of the two formats it has
  have h1 : ∀ r, (if a.ask.sm.conf.proto = .rsn then wpaSupplicantProcess1of2Rsn env f a.ask
        else wpaSupplicantProcess1of2Wpa cr f ver a.ask) = r →
      Does Kept (HandlerOut a.sm f (wpaSupplicantParseIes (keyDataOf f)).2 (groupMsg2 a.sm f ver)) a
        r.1 ∧ ∀ gd, r.2 = some gd → a.sm.conf.proto = .rsn → f.keyInfo.encrKeyData = true ∧
          ∃ gtk, (wpaSupplicantParseIes (keyDataOf f)).2.gtk = some gtk ∧
            gd.keyidx = gtkKeyidx gtk ∧ gd.gtk = gtk.drop 2 := by
    intro r hr
    subst hr
    split
    · obtain ⟨hdoes, hgd⟩ := wpaSupplicantProcess1of2Rsn_does env h0
      exact ⟨hdoes, fun gd h _ => hgd gd h⟩
    · rename_i hproto
      exact ⟨wpaSupplicantProcess1of2Wpa_does cr ver h0, fun gd _ h => absurd h hproto⟩
  rw [wpaSupplicantProcess1of2]
  generalize hr : (if a.ask.sm.conf.proto = .rsn then wpaSupplicantProcess1of2Rsn env f a.ask
    else wpaSupplicantProcess1of2Wpa cr f ver a.ask) = r
  obtain ⟨hdoes, hgd⟩ := h1 r hr
  obtain ⟨c, gd⟩ := r
  have h2 := Does.emit hdoes (.setState .groupHandshake) trivial
  cases gd with
  | none => exact Does.emit h2 .deauthenticate trivial
  | some gd =>
    refine Does.orDeauthenticate ?_ trivial
    have h3 := wpaSupplicantInstallGtk_does env gd f.keyRsc h2 fun addr tx hrsn => by
      obtain ⟨hencr, gtk, hgtk, hidx, hkey⟩ := hgd gd rfl hrsn
      exact ⟨hencr, gtk, hgtk, hidx, by rw [hkey]⟩
    refine Does.andThen h3 fun _ => ?_
    have h4 := reply_does cr env ver (wpaSupplicantInstallGtk env gd f.keyRsc
      (c.emit (.setState .groupHandshake))).1.sm.bssid h3 (h3.rel.groupMsg2 f ver)
    refine Does.andThen h4 fun _ => ?_
    split
    · exact Does.emit (Does.emit h4 (.setState .completed) trivial) _ trivial
    · exact wpaSupplicantKeyNegComplete_does _ _ h4 Notice.handlerOut

end Keys

section Msg1

variable (cr : Crypto) (env : Env) {f : EapolKey} {a c : Ctx}

-- What the steps of message 1/4 around the derivation leave alone
structure KeptTptk (sm sm' : Sm) : Prop extends KeptPtk sm sm' where
  tptk : sm'.tptk = sm.tptk
  tptkSet : sm'.tptkSet = sm.tptkSet
  peerkey : sm'.peerkey = sm.peerkey

theorem KeptTptk.refl (sm : Sm) : KeptTptk sm sm := ⟨KeptPtk.refl sm, rfl, rfl, rfl⟩

theorem KeptTptk.trans {x y z : Sm} (h : KeptTptk x y) (h' : KeptTptk y z) : KeptTptk x z where
  toKeptPtk := h.toKeptPtk.trans h'.toKeptPtk
  tptk := h'.tptk.trans h.tptk
  tptkSet := h'.tptkSet.trans h.tptkSet
  peerkey := h'.peerkey.trans h.peerkey

-- What message 1/4 may make the Supplicant do: no key goes to the driver, and the only MIC is
-- the one over message 2/4, which carries the IE of the association request.
def Msg1Out (conf : Config) : Out → Prop
  | .setKey _ _ _ _ _ _ _ | .useKek _ | .micVerified _ _ => False
  | .micOver _ g => ∃ ie, conf.assocWpaIe = some ie ∧ g.keyDataLength = BitVec.ofNat 16 ie.length
  | _ => True

theorem pmksaCacheAdd_does (h : Does KeptTptk (Msg1Out a.sm.conf) a c) :
    Does KeptTptk (Msg1Out a.sm.conf) a (pmksaCacheAdd env c) := by
  rw [pmksaCacheAdd]
  split
  · exact h.ask
  · exact h.ask.update _ (h.rel.trans ⟨⟨rfl, rfl, rfl, rfl, rfl⟩, rfl, rfl, rfl⟩)
  · refine Does.emit (h.ask.update _ (h.rel.trans ?_)) .deauthenticate trivial
    exact ⟨⟨rfl, rfl, rfl, rfl, rfl⟩, rfl, rfl, rfl⟩

theorem pmkFromEapol_does (pmkid : Option Octets) (abortCached : Bool)
    (h : Does KeptTptk (Msg1Out a.sm.conf) a c) :
    Does KeptTptk (Msg1Out a.sm.conf) a (pmkFromEapol env pmkid abortCached c).1 := by
  rw [pmkFromEapol]
  split
  · rename_i key hkey
    have h1 := h.ask.update { c.sm with pmk := key }
      (h.rel.trans ⟨⟨rfl, rfl, rfl, rfl, rfl⟩, rfl, rfl, rfl⟩)
    generalize ({ c.ask with sm := { c.sm with pmk := key } } : Ctx) = c1 at h1 ⊢
    generalize hc2 : (if c1.sm.conf.proto = .rsn then pmksaCacheAdd env c1 else c1) = c2
    have h2 : Does KeptTptk (Msg1Out a.sm.conf) a c2 := by
      rw [← hc2]
      split
      · exact pmksaCacheAdd_does env h1
      · exact h1
    simp only [hc2]
    split
    · exact h2.ask
    · exact h2
  · split
    · exact h.ask.update _ (h.rel.trans ⟨⟨rfl, rfl, rfl, rfl, rfl⟩, rfl, rfl, rfl⟩)
    · exact h.ask

theorem wpaSupplicantGetPmk_does (pmkid : Option Octets)
    (h : Does KeptTptk (Msg1Out a.sm.conf) a c) :
    Does KeptTptk (Msg1Out a.sm.conf) a (wpaSupplicantGetPmk env pmkid c).1 := by
  have h1 : Does KeptTptk (Msg1Out a.sm.conf) a (findPmksa env pmkid c).1 := by
    rw [findPmksa]
    split
    · exact h.ask.update _ (h.rel.trans ⟨⟨rfl, rfl, rfl, rfl, rfl⟩, rfl, rfl, rfl⟩)
    · exact h
  rw [wpaSupplicantGetPmk]
  generalize findPmksa env pmkid c = r1 at h1 ⊢
  obtain ⟨c1, abortCached⟩ := r1
  simp only []
  generalize hr2 : (if (pmkid.isSome && _) = true then _ else _ : Ctx × Option Bool) = r2
  have h2 : Does KeptTptk (Msg1Out a.sm.conf) a r2.1 := by
    rw [← hr2]
    split
    · refine Does.emit (h1.update _ (h1.rel.trans ?_)) .notifyCached trivial
      rw [wpaSmSetPmkFromPmksa]
      split
      · exact ⟨⟨rfl, rfl, rfl, rfl, rfl⟩, rfl, rfl, rfl⟩
      · exact ⟨⟨rfl, rfl, rfl, rfl, rfl⟩, rfl, rfl, rfl⟩
    · split
      · exact pmkFromEapol_does env pmkid abortCached h1
      · exact h1
  obtain ⟨c2, abort⟩ := r2
  cases abort with
  | none => exact h2
  | some abort =>
    simp only []
    split
    · split
      · exact Does.emit h2.ask (.eapolStart _) trivial
      · exact h2.ask
    · exact h2

theorem renewSnonce_does (h : Does KeptTptk (Msg1Out a.sm.conf) a c) :
    Does KeptTptk (Msg1Out a.sm.conf) a (renewSnonce env c).1 := by
  rw [renewSnonce]
  split
  · exact h
  split
  · exact h.ask
  · exact h.ask.update _ (h.rel.trans ⟨⟨rfl, rfl, rfl, rfl, rfl⟩, rfl, rfl, rfl⟩)

theorem wpaDerivePtk_keys (sm : Sm) (anonce : Nonce) (old : Ptk) :
    (wpaDerivePtk cr sm anonce old).swapMicKeys.keys = cr.ptkKeys (ptkInput sm anonce) := by
  rw [wpaDerivePtk, Crypto.wpaPmkToPtk, Crypto.ptkKeys, Crypto.ptkOctets, ptkInput]
  rfl

-- Message 1/4 leaves the PTK alone. A temporary PTK that it leaves behind is the one that was
-- there before, or was derived just now.
structure Answered (f : EapolKey) (a c : Ctx) : Prop where
  kept : KeptPtk a.sm c.sm
  peerkey : c.sm.peerkey = a.sm.peerkey
  emitted : ∃ l, c.out = a.out ++ l ∧ ∀ o ∈ l, Msg1Out a.sm.conf o
  tptk : (c.sm.tptk = a.sm.tptk ∧ c.sm.tptkSet = a.sm.tptkSet) ∨
    ∃ sm : Sm, sm.conf.pairwiseCipher = a.sm.conf.pairwiseCipher ∧
      sm.conf.keyMgmt = a.sm.conf.keyMgmt ∧ .derivePtk (ptkInput sm f.keyNonce) ∈ c.out ∧
      c.sm.tptk.keys = cr.ptkKeys (ptkInput sm f.keyNonce)

theorem Answered.of_does (h : Does KeptTptk (Msg1Out a.sm.conf) a c) : Answered cr f a c :=
  ⟨h.rel.toKeptPtk, h.rel.peerkey, h.emitted, .inl ⟨h.rel.tptk, h.rel.tptkSet⟩⟩

theorem Answered.deauthenticate (h : Answered cr f a c) : Answered cr f a (c.emit .deauthenticate) := by
  obtain ⟨l, hl, hall⟩ := h.emitted
  refine ⟨h.kept, h.peerkey, ⟨l ++ [.deauthenticate], ?_, ?_⟩, h.tptk.imp id ?_⟩
  · rw [Ctx.emit, hl, List.append_assoc]
  · intro o ho
    rcases List.mem_append.mp ho with ho | ho
    · exact hall o ho
    · rw [List.mem_singleton.mp ho]
      trivial
  · rintro ⟨sm, hcipher, hmgmt, hmem, hkeys⟩
    exact ⟨sm, hcipher, hmgmt, List.mem_append_left _ hmem, hkeys⟩

def derivedTptk (f : EapolKey) (c : Ctx) : Ctx :=
  { c.emit (.derivePtk (ptkInput c.sm f.keyNonce)) with sm := { c.sm with
    tptk := (wpaDerivePtk cr c.sm f.keyNonce c.sm.tptk).swapMicKeys, tptkSet := true } }

theorem Answered.of_derived {c' : Ctx} (h : Does KeptTptk (Msg1Out a.sm.conf) a c)
    (h' : Does KeptTptk (Msg1Out a.sm.conf) (derivedTptk cr f c) c') : Answered cr f a c' := by
  obtain ⟨l, hl, hall⟩ := h.emitted
  obtain ⟨l', hl', hall'⟩ := h'.emitted
  have hmid : KeptPtk c.sm (derivedTptk cr f c).sm := ⟨rfl, rfl, rfl, rfl, rfl⟩
  have hout : c'.out = a.out ++ (l ++ .derivePtk (ptkInput c.sm f.keyNonce) :: l') := by
    rw [hl', derivedTptk, Ctx.emit, hl]
    simp
  refine ⟨(h.rel.toKeptPtk.trans hmid).trans h'.rel.toKeptPtk, h'.rel.peerkey.trans h.rel.peerkey,
    ⟨_, hout, ?_⟩, .inr ⟨c.sm, ?_, ?_, ?_, ?_⟩⟩
  · intro o ho
    rcases List.mem_append.mp ho with ho | ho
    · exact hall o ho
    rcases List.mem_cons.mp ho with rfl | ho
    · trivial
    · exact hall' o ho
  · rw [h.rel.conf]
  · rw [h.rel.conf]
  · rw [hout]
    simp
  · rw [h'.rel.tptk, derivedTptk, wpaDerivePtk_keys]

theorem answer1of4_answered (f : EapolKey) (ver : KeyInfo) (h : Does KeptTptk (Msg1Out a.sm.conf) a c) :
    Answered cr f a (answer1of4 cr env f ver c).1 := by
  have h1 := renewSnonce_does env h
  rw [answer1of4, Lib.Effect.andThen]
  split
  · have h2 : Does KeptTptk (Msg1Out a.sm.conf) (derivedTptk cr f (renewSnonce env c).1)
        (derivedTptk cr f (renewSnonce env c).1) := .refl (.refl _)
    generalize (renewSnonce env c).1 = c1 at h1 h2 ⊢
    have h3 : Does KeptTptk (Msg1Out a.sm.conf) (derivedTptk cr f c1)
        (wpaSupplicantSend2of4 cr env (derivedTptk cr f c1).sm.bssid f ver
          (derivedTptk cr f c1).sm.snonce (derivedTptk cr f c1).sm.conf.assocWpaIe
          (derivedTptk cr f c1).sm.tptk (derivedTptk cr f c1)).1 := by
      unfold wpaSupplicantSend2of4
      split
      · exact h2
      rename_i ie hie
      refine allocAndSend_does cr env _ ver _ _ h2
        (fun _ => ⟨⟨rfl, rfl, rfl, rfl, rfl⟩, rfl, rfl, rfl⟩) fun o ho => ?_
      cases o with
      | micOver k g =>
        obtain ⟨-, mic, rfl⟩ := ho
        refine ⟨ie, ?_, rfl⟩
        rw [← hie, derivedTptk, h1.rel.conf]
      | etherSend dst g => trivial
      | _ => exact ho.elim
    refine Answered.of_derived cr h1 ?_
    rw [Lib.Effect.andThen]
    split
    · exact h3.update _ (h3.rel.trans ⟨⟨rfl, rfl, rfl, rfl, rfl⟩, rfl, rfl, rfl⟩)
    · exact h3
  · exact Answered.of_does cr h1

theorem wpaSupplicantProcess1of4_answered (f : EapolKey) (ver : KeyInfo) (a : Ctx) :
    Answered cr f a (wpaSupplicantProcess1of4 cr env f ver a) := by
  have h0 : Does KeptTptk (Msg1Out a.sm.conf) a a := .refl (.refl a.sm)
  rw [wpaSupplicantProcess1of4]
  split
  · exact Answered.of_does cr h0
  have h1 := wpaSupplicantGetPmk_does env
    (if (a.emit (.setState .fourWayHandshake)).sm.conf.proto = .rsn then
      (wpaSupplicantParseIes (keyDataOf f)).2.pmkid else none)
    (h0.emit (.setState .fourWayHandshake) trivial)
  simp only []
  generalize wpaSupplicantGetPmk env _ _ = r at h1 ⊢
  obtain ⟨c, res⟩ := r
  cases res with
  | eapolStart => exact Answered.of_does cr h1
  | failed => exact (Answered.of_does cr h1).deauthenticate
  | ok =>
    have h2 := answer1of4_answered cr env f ver h1
    simp only [orDeauthenticate]
    split
    · exact h2
    · exact h2.deauthenticate

end Msg1

end WpaSupplicant.Supplicant

import WpaSupplicant.Lib.Effect
import WpaSupplicant.Authenticator.Machine
import WpaSupplicant.Authenticator.Send

namespace WpaSupplicant.Authenticator

open Lib.Octets Lib.Window Lib.Effect KeyData

-- What the state machines of a station never change: it changes from outside only
structure StaFixed where
  group : ℕ
  addr : Addr
  started : Bool
  inStepLoop : Bool
  init : Bool
  eapolKeyPairwise : Bool
  eapolKeyRequest : Bool
  snonce : Nonce
  lastRxEapolKey : Option EapolKey
  wpaIe : Option Octets

def Sta.fixed (sm : Sta) : StaFixed where
  group := sm.group
  addr := sm.addr
  started := sm.started
  inStepLoop := sm.inStepLoop
  init := sm.init
  eapolKeyPairwise := sm.eapolKeyPairwise
  eapolKeyRequest := sm.eapolKeyRequest
  snonce := sm.snonce
  lastRxEapolKey := sm.lastRxEapolKey
  wpaIe := sm.wpaIe

structure GroupFixed where
  vlanId : ℕ
  gInit : Bool
  gtkReKey : Bool
  state : GroupState

def Group.fixed (g : Group) : GroupFixed := ⟨g.vlanId, g.gInit, g.gtkReKey, g.state⟩

structure StaNonce where
  anonce : Nonce
  origin : Option NonceOrigin
  used : Bool

def Sta.nonce (sm : Sta) : StaNonce := ⟨sm.anonce, sm.anonceOrigin, sm.anonceUsed⟩

def Sta.pendingUpdate (sm : Sta) : ℤ := if sm.gUpdateStationKeys then 1 else 0

-- The Counter of a group only goes up; an epoch ends when it is set anew or wraps.
def ClockLe (g g' : Group) : Prop :=
  g.epoch < g'.epoch ∨ (g.epoch = g'.epoch ∧ g.counter ≤ g'.counter)

theorem ClockLe.refl (g : Group) : ClockLe g g := .inr ⟨rfl, BitVec.le_refl _⟩

theorem ClockLe.trans {x y z : Group} (h : ClockLe x y) (h' : ClockLe y z) : ClockLe x z := by
  rcases h with h | ⟨h, hc⟩
  · rcases h' with h' | ⟨h', -⟩
    · exact .inl (h.trans h')
    · exact .inl (h' ▸ h)
  · rcases h' with h' | ⟨h', hc'⟩
    · exact .inl (h ▸ h')
    · exact .inr ⟨h.trans h', BitVec.le_trans hc hc'⟩

theorem lt_incField_counter (n : Nonce) (h : incField 32 n ≠ 0) : n < incField 32 n := by
  rw [incField_eq 32 n rfl] at h ⊢
  have hlt := n.isLt
  by_cases hmax : n.toNat + 1 = 2 ^ 256
  · refine absurd ?_ h
    apply BitVec.eq_of_toNat_eq
    simp [BitVec.toNat_add, hmax]
  rw [BitVec.lt_def, BitVec.toNat_add]
  have hone : (1 : Nonce).toNat = 1 := by simp
  rw [hone, Nat.mod_eq_of_lt (by omega)]
  omega

theorem incCounter_cases (g : Group) :
    g.incCounter.epoch = g.epoch + 1 ∨
      (g.incCounter.epoch = g.epoch ∧ g.counter < g.incCounter.counter) := by
  have hc : g.incCounter.counter = incField 32 g.counter := by simp only [Group.incCounter]
  have he : g.incCounter.epoch = if incField 32 g.counter = 0 then g.epoch + 1 else g.epoch := by
    simp only [Group.incCounter]
  by_cases h : incField 32 g.counter = 0
  · rw [if_pos h] at he
    exact .inl he
  · rw [if_neg h] at he
    exact .inr ⟨he, by rw [hc]; exact lt_incField_counter _ h⟩

@[simp] theorem incCounter_fixed (g : Group) : g.incCounter.fixed = g.fixed := by
  simp only [Group.incCounter, Group.fixed]

@[simp] theorem incCounter_gKeyDoneStations (g : Group) :
    g.incCounter.gKeyDoneStations = g.gKeyDoneStations := by
  simp only [Group.incCounter]

theorem clockLe_incCounter (g : Group) : ClockLe g g.incCounter := by
  rcases incCounter_cases g with h | ⟨h, hlt⟩
  · exact .inl (by omega)
  · exact .inr ⟨h.symm, BitVec.le_of_lt hlt⟩

-- What all functions of the state machines leave alone in a station, except for the three that
-- draw an ANonce, derive a PTK and complete a handshake: requests are only taken back, and a PTK
-- is only given up. A function that asks for the disconnection of the station has entered a
-- state, and nothing takes that back in the same round. (INITIALIZE does while `Init` is set.)
structure Keeps (sm sm' : Sta) : Prop where
  fixed : sm'.fixed = sm.fixed
  nonce : sm'.nonce = sm.nonce
  micVerified : sm'.micVerified = sm.micVerified
  received : sm'.eapolKeyReceived = true → sm.eapolKeyReceived = true
  valid : sm'.ptkValid = true → sm.ptkValid = true ∧ sm'.ptk = sm.ptk
  changed : sm.init = false → sm.changed = true → sm'.changed = true
  disconnect : sm.init = false → sm'.disconnect = true → sm.disconnect = true ∨ sm'.changed = true
  deauthentication : sm'.deauthenticationRequest = true → sm.deauthenticationRequest = true
  authentication : sm'.authenticationRequest = true → sm.authenticationRequest = true
  reAuthentication : sm'.reAuthenticationRequest = true → sm.reAuthenticationRequest = true
  request : sm'.ptkRequest = true → sm.ptkRequest = true

-- The fields `Keeps` speaks of
structure StaCore where
  nonce : StaNonce
  micVerified : Bool
  eapolKeyReceived : Bool
  ptkValid : Bool
  ptk : Ptk
  changed : Bool
  disconnect : Bool
  deauthenticationRequest : Bool
  authenticationRequest : Bool
  reAuthenticationRequest : Bool
  ptkRequest : Bool

def Sta.core (sm : Sta) : StaCore where
  nonce := sm.nonce
  micVerified := sm.micVerified
  eapolKeyReceived := sm.eapolKeyReceived
  ptkValid := sm.ptkValid
  ptk := sm.ptk
  changed := sm.changed
  disconnect := sm.disconnect
  deauthenticationRequest := sm.deauthenticationRequest
  authenticationRequest := sm.authenticationRequest
  reAuthenticationRequest := sm.reAuthenticationRequest
  ptkRequest := sm.ptkRequest

theorem Keeps.of_core {sm sm' : Sta} (hfixed : sm'.fixed = sm.fixed) (hcore : sm'.core = sm.core) :
    Keeps sm sm' where
  fixed := hfixed
  nonce := congrArg StaCore.nonce hcore
  micVerified := congrArg StaCore.micVerified hcore
  received := (congrArg StaCore.eapolKeyReceived hcore).symm.trans
  valid h := ⟨(congrArg StaCore.ptkValid hcore).symm.trans h, congrArg StaCore.ptk hcore⟩
  changed _ := (congrArg StaCore.changed hcore).trans
  disconnect _ h := .inl ((congrArg StaCore.disconnect hcore).symm.trans h)
  deauthentication := (congrArg StaCore.deauthenticationRequest hcore).symm.trans
  authentication := (congrArg StaCore.authenticationRequest hcore).symm.trans
  reAuthentication := (congrArg StaCore.reAuthenticationRequest hcore).symm.trans
  request := (congrArg StaCore.ptkRequest hcore).symm.trans

theorem Keeps.refl (sm : Sta) : Keeps sm sm := .of_core rfl rfl

theorem Keeps.trans {x y z : Sta} (h : Keeps x y) (h' : Keeps y z) : Keeps x z where
  fixed := h'.fixed.trans h.fixed
  nonce := h'.nonce.trans h.nonce
  micVerified := h'.micVerified.trans h.micVerified
  received := h.received ∘ h'.received
  valid hz := by
    obtain ⟨hy, hptk⟩ := h'.valid hz
    obtain ⟨hx, hptk'⟩ := h.valid hy
    exact ⟨hx, hptk.trans hptk'⟩
  changed hinit hx := h'.changed ((congrArg StaFixed.init h.fixed).trans hinit) (h.changed hinit hx)
  disconnect hinit hz := by
    have hinit' : y.init = false := (congrArg StaFixed.init h.fixed).trans hinit
    rcases h'.disconnect hinit' hz with hy | hz
    · exact (h.disconnect hinit hy).imp id (h'.changed hinit')
    · exact .inr hz
  deauthentication := h.deauthentication ∘ h'.deauthentication
  authentication := h.authentication ∘ h'.authentication
  reAuthentication := h.reAuthentication ∘ h'.reAuthentication
  request := h.request ∘ h'.request

-- What every function of the state machines does to the group of its station: the count of
-- pending updates follows the flag of the station, which is only taken back, and the Counter goes
-- up.
structure Moves (sm : Sta) (g : Group) (sm' : Sta) (g' : Group) : Prop where
  fixed : g'.fixed = g.fixed
  count : g'.gKeyDoneStations - sm'.pendingUpdate = g.gKeyDoneStations - sm.pendingUpdate
  clock : ClockLe g g'
  pending : sm'.gUpdateStationKeys = true → sm.gUpdateStationKeys = true

theorem Moves.refl (sm : Sta) (g : Group) : Moves sm g sm g := ⟨rfl, rfl, .refl g, id⟩

theorem Moves.trans {s₁ s₂ s₃ : Sta} {g₁ g₂ g₃ : Group} (h : Moves s₁ g₁ s₂ g₂)
    (h' : Moves s₂ g₂ s₃ g₃) : Moves s₁ g₁ s₃ g₃ :=
  ⟨h'.fixed.trans h.fixed, h'.count.trans h.count, h.clock.trans h'.clock, h.pending ∘ h'.pending⟩

-- The outputs of the state machines outside of PTKCALCNEGOTIATING and PTKINITDONE: no pairwise
-- key but an empty one, no port is opened, and every frame with a MIC asks for an answer or is an
-- SMK message
def Quiet : Out → Prop
  | .setKey _ alg _ idx _ => alg = .none ∨ idx ≠ 0
  | .setEapol _ var value => var = .authorized ∨ var = .portValid → value = false
  | .micOver _ frame => frame.keyInfo.ack = true ∨ frame.keyInfo.smkMessage = true
  | .ptkInitDone _ _ _ | .derivePtk _ => False
  | _ => True

-- What has been done since `a`; the lemmas below extend it over one more function.
def Goes (a c : Ctx) : Prop :=
  Emits Ctx.out (fun x y => Keeps x.sm y.sm ∧ Moves x.sm x.grp y.sm y.grp) Quiet a c

namespace Goes

variable {a c : Ctx}

theorem refl (c : Ctx) : Goes c c := Emits.same ⟨.refl c.sm, .refl c.sm c.grp⟩ rfl

theorem trans {x y z : Ctx} (h : Goes x y) (h' : Goes y z) : Goes x z :=
  Emits.trans (fun h h' => ⟨h.1.trans h'.1, h.2.trans h'.2⟩) h h'

theorem ask (h : Goes a c) : Goes a c.ask := ⟨h.rel, h.emitted⟩

theorem emit (h : Goes a c) (o : Out) (ho : Quiet o) : Goes a (c.emit o) :=
  h.trans (Emits.one o ⟨.refl c.sm, .refl c.sm c.grp⟩ rfl ho)

theorem sta (h : Goes a c) (sm : Sta) (hk : Keeps c.sm sm)
    (hflag : sm.gUpdateStationKeys = c.sm.gUpdateStationKeys) : Goes a { c with sm := sm } := by
  refine h.trans (Emits.same ⟨hk, rfl, ?_, .refl c.grp, hflag.symm.trans⟩ rfl)
  simp only [Sta.pendingUpdate, hflag]

theorem grp (h : Goes a c) (g : Group) (hfixed : g.fixed = c.grp.fixed)
    (hcount : g.gKeyDoneStations = c.grp.gKeyDoneStations) (hclock : ClockLe c.grp g) :
    Goes a { c with grp := g } :=
  h.trans (Emits.same ⟨.refl c.sm, hfixed, by rw [hcount], hclock, id⟩ rfl)

end Goes

section Functions

variable (cr : Crypto) (env : Env) (ap : Ap) {a c : Ctx}

theorem enterPtk_goes (st : PtkState) (h : Goes a c) : Goes a (enterPtk st c) :=
  h.sta _ { Keeps.refl c.sm with
    changed := fun _ _ => rfl, disconnect := fun _ h => .inl h } rfl

theorem enterPtkGroup_goes (st : PtkGroupState) (h : Goes a c) : Goes a (enterPtkGroup st c) :=
  h.sta _ { Keeps.refl c.sm with
    changed := fun _ _ => rfl, disconnect := fun _ h => .inl h } rfl

theorem clearGUpdate_goes (h : Goes a c) : Goes a (clearGUpdate c) := by
  refine h.trans (Emits.same ⟨.of_core rfl rfl, ?_, ?_, ?_, fun hp => Bool.noConfusion hp⟩ rfl)
  · simp only [clearGUpdate]
    split <;> rfl
  · simp only [clearGUpdate, Sta.pendingUpdate]
    split
    · simp
    · simp
  · simp only [clearGUpdate]
    split
    · exact .inr ⟨rfl, BitVec.le_refl _⟩
    · exact .refl _

theorem wpaRemovePtk_goes (h : Goes a c) : Goes a (wpaRemovePtk c) := by
  rw [wpaRemovePtk]
  have h1 := h.sta { c.sm with ptkValid := false, ptk := .zero }
    { Keeps.refl c.sm with valid := by simp } rfl
  have h2 := h1.ask.emit (.setKey 0 .none c.sm.addr 0 []) (.inl rfl)
  exact h2.sta _ (.of_core rfl rfl) rfl

theorem wpaAuthSetEapol_goes (var : EapolVariable) (value : Bool) (h : Goes a c)
    (hv : var = .authorized ∨ var = .portValid → value = false) :
    Goes a (wpaAuthSetEapol var value c) := h.emit _ hv

theorem wpaStaDisconnect_goes (h : Goes a c) : Goes a (wpaStaDisconnect c) := h.emit _ trivial

theorem gnonce_incCounter (g : Group) :
    ({ g with gnonce := g.counter } : Group).incCounter.fixed = g.fixed ∧
      ({ g with gnonce := g.counter } : Group).incCounter.gKeyDoneStations = g.gKeyDoneStations ∧
      ClockLe g ({ g with gnonce := g.counter } : Group).incCounter := by
  have h : ClockLe g { g with gnonce := g.counter } := .inr ⟨rfl, BitVec.le_refl _⟩
  exact ⟨incCounter_fixed _, incCounter_gKeyDoneStations _, h.trans (clockLe_incCounter _)⟩

theorem wpaGtkUpdate_goes (h : Goes a c) : Goes a (wpaGtkUpdate cr env ap c) := by
  simp only [wpaGtkUpdate]
  obtain ⟨hfixed, hcount, hclock⟩ := gnonce_incCounter c.grp
  generalize ({ c.grp with gnonce := c.grp.counter } : Group).incCounter = g1 at *
  generalize wpaGmkToGtk cr env ap g1.gmk "Group key expansion" _ _ _ = gtk
  have h1 := h.ask.grp { g1 with gtk := Function.update g1.gtk g1.gn gtk } hfixed hcount hclock
  split
  · exact h1
  obtain ⟨hfixed2, hcount2, hclock2⟩ :=
    gnonce_incCounter { g1 with gtk := Function.update g1.gtk g1.gn gtk }
  dsimp only at hfixed2 hcount2 hclock2
  generalize Group.incCounter _ = g2 at *
  exact h1.ask.grp _ hfixed2 hcount2 hclock2

theorem KeySlot.gtkIndex_ne_zero (k : KeySlot) : k.gtkIndex ≠ 0 := by cases k <;> decide

theorem KeySlot.igtkIndex_ne_zero (k : KeySlot) : k.igtkIndex ≠ 0 := by cases k <;> decide

theorem wpaGroupConfigGroupKeys_goes (h : Goes a c) : Goes a (wpaGroupConfigGroupKeys ap c) := by
  simp only [wpaGroupConfigGroupKeys]
  have h1 := h.ask.emit (.setKey c.grp.vlanId (wpaAlgEnum ap.conf.wpaGroup) broadcastEtherAddr
    c.grp.gn.gtkIndex (c.grp.gtk c.grp.gn)) (.inr (KeySlot.gtkIndex_ne_zero _))
  split
  · exact h1
  · exact h1.ask.emit _ (.inr (KeySlot.igtkIndex_ne_zero _))

theorem wpaGroupInitGmkAndCounter_goes (h : Goes a c) :
    Goes a (wpaGroupInitGmkAndCounter cr env ap c).1 := by
  rw [wpaGroupInitGmkAndCounter]
  split
  · exact h.ask
  rename_i gmk hgmk
  have h1 := h.ask.grp { c.grp with gmk := fit 32 gmk } rfl rfl (.inr ⟨rfl, BitVec.le_refl _⟩)
  dsimp only
  split
  · exact h1.ask
  · exact h1.ask.grp _ rfl rfl (.inl (Nat.lt_succ_self _))

theorem wpaGroupFirstStation_goes (h : Goes a c) : Goes a (wpaGroupFirstStation cr env ap c) := by
  simp only [wpaGroupFirstStation]
  refine wpaGroupConfigGroupKeys_goes ap (wpaGtkUpdate_goes cr env ap
    (wpaGroupInitGmkAndCounter_goes cr env ap ?_))
  split
  · exact h.ask
  · exact h.ask.grp _ rfl rfl (.inr ⟨rfl, BitVec.le_refl _⟩)

theorem sendKeyInfo_ack (sm : Sta) (keyInfo : KeyInfo) (keyidx : ℕ) (encr : Bool)
    (h : keyInfo.ack = true) : (sendKeyInfo sm keyInfo keyidx encr).ack = true := by
  simp only [KeyInfo.ack] at h ⊢
  simp [sendKeyInfo, h]

theorem sendKeyInfo_smkMessage (sm : Sta) (keyInfo : KeyInfo) (keyidx : ℕ) (encr : Bool)
    (h : keyInfo.smkMessage = true) : (sendKeyInfo sm keyInfo keyidx encr).smkMessage = true := by
  simp only [KeyInfo.smkMessage] at h ⊢
  simp [sendKeyInfo, h]

section Send

variable (keyInfo : KeyInfo) (rsc : Option (BitVec 64)) (nonce : Option Nonce)
  (kde : Option Octets) (keyidx : ℕ) (encr : Bool)

theorem quiet_of_sends {sm : Sta} {out : List Out}
    (hbits : keyInfo.ack = true ∨ keyInfo.smkMessage = true)
    (h : Sends cr ap keyInfo rsc nonce kde keyidx encr sm out) : ∀ o ∈ out, Quiet o := by
  have hinc : Quiet (.setEapol sm.addr .incEapolFramesTx true) := by simp [Quiet]
  obtain rfl | ⟨iv, keyData, -, rfl⟩ := h
  · simp
  rw [transmitOut]
  split
  · split
    · intro o ho
      simp only [List.mem_cons, List.not_mem_nil, or_false] at ho
      rcases ho with rfl | rfl | rfl
      · exact hbits.imp (sendKeyInfo_ack sm keyInfo keyidx encr)
          (sendKeyInfo_smkMessage sm keyInfo keyidx encr)
      · exact hinc
      · trivial
    · simp
  · intro o ho
    simp only [List.mem_cons, List.not_mem_nil, or_false] at ho
    rcases ho with rfl | rfl
    · exact hinc
    · trivial

theorem wpaSendEapolRaw_goes (h : Goes a c)
    (hbits : keyInfo.ack = true ∨ keyInfo.smkMessage = true) :
    Goes a (wpaSendEapolRaw cr env ap keyInfo rsc nonce kde keyidx encr c) := by
  rcases wpaSendEapolRaw_cases cr env ap keyInfo rsc nonce kde keyidx encr c with
    ⟨-, heq⟩ | ⟨-, grp, tick, out, heq, hgrp, hsends⟩
  · rw [heq]
    exact h.ask
  rw [heq]
  have hk : Keeps c.sm c.sm.numbered := .of_core rfl rfl
  have hm : Moves c.sm c.grp c.sm.numbered grp := by
    rcases hgrp with rfl | rfl
    · exact ⟨rfl, rfl, .refl _, id⟩
    refine ⟨incCounter_fixed _, ?_, clockLe_incCounter _, id⟩
    rw [incCounter_gKeyDoneStations]
    rfl
  exact h.trans ⟨⟨hk, hm⟩, out, rfl, quiet_of_sends cr ap keyInfo rsc nonce kde keyidx encr hbits hsends⟩

theorem wpaSendEapol_goes (h : Goes a c) (hbits : keyInfo.ack = true ∨ keyInfo.smkMessage = true) :
    Goes a (wpaSendEapol cr env ap keyInfo rsc nonce kde keyidx encr c) := by
  have h1 := wpaSendEapolRaw_goes cr env ap keyInfo rsc nonce kde keyidx encr h hbits
  exact h1.sta _ (.of_core rfl rfl) rfl

theorem wpaSendEapol_sm (c : Ctx) :
    ∃ keyReplay pending, (wpaSendEapol cr env ap keyInfo rsc nonce kde keyidx encr c).sm =
      { c.sm with keyReplay := keyReplay, pending1of4Timeout := pending, eapolTimer := true } := by
  rcases wpaSendEapolRaw_cases cr env ap keyInfo rsc nonce kde keyidx encr c with
    ⟨-, heq⟩ | ⟨-, grp, tick, out, heq, -, -⟩
  · simp only [wpaSendEapol, heq]
    exact ⟨_, _, rfl⟩
  · simp only [wpaSendEapol, heq]
    exact ⟨_, _, rfl⟩

end Send

end Functions

section Entries

variable (cr : Crypto) (env : Env) (ap : Ap) {a c : Ctx}

theorem ptkInitialize_goes (h : Goes a c) : Goes a (ptkInitialize c) := by
  have h1 := enterPtk_goes .ptkInitialize h
  have h2 := h1.sta { (enterPtk .ptkInitialize c).sm with changed := !c.sm.init }
    { Keeps.refl _ with
      changed := fun hinit _ => by
        have hinit : c.sm.init = false := hinit
        simp [hinit]
      disconnect := fun _ h => .inl h } rfl
  have h3 := clearGUpdate_goes h2
  have h4 := h3.sta { (clearGUpdate { enterPtk .ptkInitialize c with
      sm := { (enterPtk .ptkInitialize c).sm with changed := !c.sm.init } }).sm with
    pInitAKeys := c.sm.pInitAKeys && c.sm.wpa ≠ some .wpa, pair := true } (.of_core rfl rfl) rfl
  have h5 := wpaAuthSetEapol_goes .portEnabled false h4 (by simp)
  have h6 := wpaRemovePtk_goes h5
  have h7 := wpaAuthSetEapol_goes .portValid false h6 (by simp)
  simp only [ptkInitialize]
  split
  · exact wpaAuthSetEapol_goes .authorized false (h7.sta _ (.of_core rfl rfl) rfl) (by simp)
  · exact h7.sta _ (.of_core rfl rfl) rfl

theorem ptkDisconnect_goes (h : Goes a c) : Goes a (ptkDisconnect c) := by
  have h1 := (enterPtk_goes .disconnect h).sta { (enterPtk .disconnect c).sm with disconnect := false }
    { Keeps.refl _ with disconnect := by simp } rfl
  exact wpaStaDisconnect_goes h1

theorem ptkDisconnected_goes (h : Goes a c) : Goes a (ptkDisconnected c) :=
  (enterPtk_goes .disconnected h).sta _ { Keeps.refl _ with deauthentication := by simp } rfl

theorem ptkAuthentication_goes (h : Goes a c) : Goes a (ptkAuthentication c) := by
  have h1 := (enterPtk_goes .authentication h).sta
    { (enterPtk .authentication c).sm with ptk := .zero, ptkValid := false }
    { Keeps.refl _ with valid := by simp } rfl
  have h2 := wpaAuthSetEapol_goes .portEnabled true
    (wpaAuthSetEapol_goes .portControlAuto true h1 (by simp)) (by simp)
  exact h2.sta _ { Keeps.refl _ with
    authentication := by simp, disconnect := fun _ h => .inl h } rfl

theorem ptkInitpmk_goes (h : Goes a c) : Goes a (ptkInitpmk env c) := by
  have h1 := enterPtk_goes .initpmk h
  simp only [ptkInitpmk]
  generalize enterPtk .initpmk c = c1 at h1 ⊢
  split
  · exact wpaAuthSetEapol_goes .keyRun false ((h1.sta _ (.of_core rfl rfl) rfl).sta _
      (.of_core rfl rfl) rfl) (by simp)
  split
  · exact wpaAuthSetEapol_goes .keyRun false ((h1.ask.sta _ (.of_core rfl rfl) rfl).sta _
      (.of_core rfl rfl) rfl) (by simp)
  · exact wpaAuthSetEapol_goes .keyRun false (h1.ask.sta _ (.of_core rfl rfl) rfl) (by simp)

theorem ptkInitpsk_goes (h : Goes a c) : Goes a (ptkInitpsk env c) := by
  have h1 := enterPtk_goes .initpsk h
  simp only [ptkInitpsk]
  generalize enterPtk .initpsk c = c1 at h1 ⊢
  split
  · exact (h1.ask.sta _ (.of_core rfl rfl) rfl).sta _ (.of_core rfl rfl) rfl
  · exact h1.ask.sta _ (.of_core rfl rfl) rfl

theorem ptkPtkstart_goes (h : Goes a c) : Goes a (ptkPtkstart cr env ap c) := by
  have h1 := enterPtk_goes .ptkstart h
  simp only [ptkPtkstart]
  generalize enterPtk .ptkstart c = c1 at h1 ⊢
  have h2 := h1.sta { c1.sm with
    ptkRequest := false, timeoutEvt := false, timeoutCtr := c1.sm.timeoutCtr + 1 }
    { Keeps.refl _ with request := by simp, disconnect := fun _ h => .inl h } rfl
  split
  · exact h2
  · exact wpaSendEapol_goes cr env ap _ _ _ _ _ _ h2 (.inl (by decide))

theorem ptkPtkcalcnegotiating2_goes (h : Goes a c) : Goes a (ptkPtkcalcnegotiating2 c) :=
  (enterPtk_goes .ptkcalcnegotiating2 h).sta _ (.of_core rfl rfl) rfl

theorem sentGtk_goes (h : Goes a c) : Goes a (sentGtk env ap c).2 := by
  rw [sentGtk]
  split
  · exact h.ask
  · exact h

theorem ieee80211wKdeAdd_goes (h : Goes a c) : Goes a (ieee80211wKdeAdd env ap c).2 := by
  rw [ieee80211wKdeAdd]
  split
  · exact h
  generalize hc1 : (if c.grp.state = .setkeysdone then c.ask else c) = c1
  have h1 : Goes a c1 := by
    rw [← hc1]
    split
    · exact h.ask
    · exact h
  dsimp only
  split
  · split
    · exact h1.ask
    · exact h1.ask
  · exact h1

theorem ptkPtkinitnegotiating_goes (h : Goes a c) : Goes a (ptkPtkinitnegotiating cr env ap c) := by
  have h1 := enterPtk_goes .ptkinitnegotiating h
  simp only [ptkPtkinitnegotiating]
  generalize enterPtk .ptkinitnegotiating c = c1 at h1 ⊢
  have h2 := h1.sta { c1.sm with timeoutEvt := false, timeoutCtr := c1.sm.timeoutCtr + 1 }
    (.of_core rfl rfl) rfl
  generalize ({ c1 with sm := { c1.sm with
    timeoutEvt := false, timeoutCtr := c1.sm.timeoutCtr + 1 } } : Ctx) = c2 at h2 ⊢
  split
  · exact h2
  split
  · have h3 := sentGtk_goes env ap h2.ask
    split
    · rename_i c3 hc3
      rw [hc3] at h3
      exact h3
    rename_i gtk c3 hc3
    rw [hc3] at h3
    split
    · exact h3.ask
    · exact wpaSendEapol_goes cr env ap _ _ _ _ _ _ (ieee80211wKdeAdd_goes env ap h3.ask)
        (.inl (by decide))
  · split
    · exact h2.ask.ask
    refine wpaSendEapol_goes cr env ap _ _ _ _ _ _ (ieee80211wKdeAdd_goes env ap h2.ask.ask)
      (.inl ?_)
    simp [KeyInfo.ack, KeyInfo.ackBit]

theorem groupIdle_goes (h : Goes a c) : Goes a (groupIdle c) := by
  refine (enterPtkGroup_goes .idle h).sta _ { Keeps.refl _ with
    changed := fun hinit _ => ?_, disconnect := fun _ h => .inl h } rfl
  have hinit : c.sm.init = false := hinit
  simp [enterPtkGroup, hinit]

theorem groupRekeySend_goes (rsc : BitVec 64) (h : Goes a c) :
    Goes a (groupRekeySend cr env ap rsc c) := by
  have h1 := sentGtk_goes env ap h
  simp only [groupRekeySend]
  split
  · rename_i c1 hc1
    rw [hc1] at h1
    exact h1
  rename_i gtk c1 hc1
  rw [hc1] at h1
  have hack : KeyInfo.ack (KeyInfo.secureBit ||| KeyInfo.micBit ||| KeyInfo.ackBit |||
      KeyInfo.flag (!c1.sm.pair) KeyInfo.installBit) = true := by
    simp [KeyInfo.ack, KeyInfo.ackBit]
  split
  · split
    · exact h1.ask
    · exact wpaSendEapol_goes cr env ap _ _ _ _ _ _ (ieee80211wKdeAdd_goes env ap h1.ask)
        (.inl hack)
  · exact wpaSendEapol_goes cr env ap _ _ _ _ _ _ h1 (.inl hack)

theorem groupRekeynegotiating_goes (h : Goes a c) : Goes a (groupRekeynegotiating cr env ap c) := by
  have h1 := enterPtkGroup_goes .rekeynegotiating h
  simp only [groupRekeynegotiating]
  generalize enterPtkGroup .rekeynegotiating c = c1 at h1 ⊢
  have h2 := h1.sta { c1.sm with gTimeoutCtr := c1.sm.gTimeoutCtr + 1 } (.of_core rfl rfl) rfl
  split
  · exact h2
  have h3 := h2.sta { c1.sm with
    gTimeoutCtr := c1.sm.gTimeoutCtr + 1
    pInitAKeys := c1.sm.pInitAKeys && decide (c1.sm.wpa ≠ some .wpa)
    timeoutEvt := false } (.of_core rfl rfl) rfl
  split
  · exact groupRekeySend_goes cr env ap _ h3.ask
  · exact groupRekeySend_goes cr env ap _ h3

theorem groupRekeyestablished_goes (h : Goes a c) : Goes a (groupRekeyestablished c) := by
  have h1 := (enterPtkGroup_goes .rekeyestablished h).sta
    { (enterPtkGroup .rekeyestablished c).sm with eapolKeyReceived := false }
    { Keeps.refl _ with received := by simp, disconnect := fun _ h => .inl h } rfl
  exact (clearGUpdate_goes h1).sta _ (.of_core rfl rfl) rfl

theorem groupKeyerror_goes (h : Goes a c) : Goes a (groupKeyerror c) :=
  (clearGUpdate_goes (enterPtkGroup_goes .keyerror h)).sta _
    { Keeps.refl _ with disconnect := fun _ _ => .inr rfl } rfl

-- The machine of the group handshake never goes beyond `Goes`.
theorem ptkGroupStep_goes (c : Ctx) : Goes c (ptkGroupStep cr env ap c) := by
  have h := Goes.refl c
  simp only [ptkGroupStep]
  split
  · exact (groupIdle_goes h).sta _ (.of_core rfl rfl) rfl
  split
  · split
    · exact groupRekeynegotiating_goes cr env ap h
    · exact h
  · split
    · exact groupRekeyestablished_goes h
    split
    · exact groupKeyerror_goes h
    split
    · exact groupRekeynegotiating_goes cr env ap h
    · exact h
  · exact groupIdle_goes h
  · exact groupIdle_goes h

end Entries

end WpaSupplicant.Authenticator

namespace WpaSupplicant.Authenticator

open Lib.Octets Lib.Window Lib.Effect KeyData

section Transitions

variable (cr : Crypto) (env : Env) (ap : Ap)

-- A state has been entered: the loop of `wpa_sm_step` will see a change unless `Init` is set.
def Entered (st : PtkState) (sm sm' : Sta) : Prop :=
  sm'.ptkState = st ∧ (sm.init = false → sm'.changed = true)

theorem ptkInitialize_entered (c : Ctx) :
    Entered .ptkInitialize c.sm (ptkInitialize c).sm ∧ (ptkInitialize c).sm.ptkValid = false := by
  simp only [ptkInitialize]
  split
  · exact ⟨⟨rfl, fun h => congrArg not h⟩, rfl⟩
  · exact ⟨⟨rfl, fun h => congrArg not h⟩, rfl⟩

theorem ptkInitpmk_entered (c : Ctx) : Entered .initpmk c.sm (ptkInitpmk env c).sm := by
  simp only [ptkInitpmk]
  split
  · exact ⟨rfl, fun _ => rfl⟩
  split
  · exact ⟨rfl, fun _ => rfl⟩
  · exact ⟨rfl, fun _ => rfl⟩

theorem ptkInitpsk_entered (c : Ctx) : Entered .initpsk c.sm (ptkInitpsk env c).sm := by
  simp only [ptkInitpsk]
  split
  · exact ⟨rfl, fun _ => rfl⟩
  · exact ⟨rfl, fun _ => rfl⟩

theorem wpaSendEapol_entered {st : PtkState} {sm : Sta} (keyInfo : KeyInfo)
    (rsc : Option (BitVec 64)) (nonce : Option Nonce) (kde : Option Octets) (keyidx : ℕ)
    (encr : Bool) (c : Ctx) (h : Entered st sm c.sm) :
    Entered st sm (wpaSendEapol cr env ap keyInfo rsc nonce kde keyidx encr c).sm := by
  obtain ⟨keyReplay, pending, hsm⟩ := wpaSendEapol_sm cr env ap keyInfo rsc nonce kde keyidx encr c
  rw [hsm]
  exact h

theorem ptkPtkstart_entered (c : Ctx) : Entered .ptkstart c.sm (ptkPtkstart cr env ap c).sm := by
  simp only [ptkPtkstart]
  split
  · exact ⟨rfl, fun _ => rfl⟩
  · exact wpaSendEapol_entered cr env ap _ _ _ _ _ _ _ ⟨rfl, fun _ => rfl⟩

theorem sentGtk_sm (c : Ctx) : (sentGtk env ap c).2.sm = c.sm := by
  rw [sentGtk]
  split <;> rfl

theorem ieee80211wKdeAdd_sm (c : Ctx) : (ieee80211wKdeAdd env ap c).2.sm = c.sm := by
  rw [ieee80211wKdeAdd]
  split
  · rfl
  dsimp only
  split <;> split <;> try split
  all_goals rfl

theorem ptkPtkinitnegotiating_entered (c : Ctx) :
    Entered .ptkinitnegotiating c.sm (ptkPtkinitnegotiating cr env ap c).sm := by
  have h : Entered .ptkinitnegotiating c.sm (enterPtk .ptkinitnegotiating c).sm :=
    ⟨rfl, fun _ => rfl⟩
  simp only [ptkPtkinitnegotiating]
  split
  · exact h
  split
  · split
    · rename_i c1 hc1
      rw [(congrArg (fun r => r.2.sm) hc1).symm.trans (sentGtk_sm env ap _)]
      exact h
    rename_i gtk c1 hc1
    have hsm := (congrArg (fun r => r.2.sm) hc1).symm.trans (sentGtk_sm env ap _)
    dsimp only at hsm
    split
    · change Entered _ _ c1.sm
      rw [hsm]
      exact h
    refine wpaSendEapol_entered cr env ap _ _ _ _ _ _ _ ?_
    rw [ieee80211wKdeAdd_sm]
    change Entered _ _ c1.sm
    rw [hsm]
    exact h
  · split
    · exact h
    refine wpaSendEapol_entered cr env ap _ _ _ _ _ _ _ ?_
    rw [ieee80211wKdeAdd_sm]
    exact h

def Sta.keyFrame (sm : Sta) : Bool :=
  sm.eapolKeyReceived && !sm.eapolKeyRequest && sm.eapolKeyPairwise

structure Calm (sm : Sta) : Prop where
  init : sm.init = false
  disconnect : sm.disconnect = false
  deauthentication : sm.deauthenticationRequest = false
  authentication : sm.authenticationRequest = false
  reAuthentication : sm.reAuthenticationRequest = false
  request : sm.ptkRequest = false

-- The transitions that neither draw an ANonce nor take a frame: where the machine may come from
-- when it enters a state
def Enters (sm sm' : Sta) : Prop :=
  match sm'.ptkState with
  | .ptkInitialize | .authentication => sm'.ptkValid = false
  | .disconnect | .disconnected => True
  | .initpmk | .initpsk => Calm sm ∧ sm.ptkState = .authentication2
  | .ptkstart =>
    sm.ptkRequest = true ∨ sm.ptkState = .initpmk ∨ sm.ptkState = .initpsk ∨
      sm.ptkState = .ptkstart ∨ (sm.ptkState = .ptkcalcnegotiating ∧ sm.micVerified = false)
  | .ptkcalcnegotiating2 => sm.ptkState = .ptkcalcnegotiating ∧ sm.micVerified = true
  | .ptkinitnegotiating => sm.ptkState = .ptkcalcnegotiating2 ∨ sm.ptkState = .ptkinitnegotiating
  | _ => False

def Ctx.drawn (c : Ctx) : Ctx :=
  { c with
    sm := { c.sm with
      anonce := c.grp.counter
      anonceOrigin := some ⟨c.sm.group, c.grp.epoch⟩
      anonceUsed := false
      reAuthenticationRequest := false
      timeoutCtr := 0 }
    grp := c.grp.incCounter }

theorem wpaGtkUpdate_sm (c : Ctx) : (wpaGtkUpdate cr env ap c).sm = c.sm := by
  simp only [wpaGtkUpdate]
  split
  · simp only [Ctx.ask]
  · simp only [Ctx.ask]

theorem wpaGroupConfigGroupKeys_sm (c : Ctx) : (wpaGroupConfigGroupKeys ap c).sm = c.sm := by
  simp only [wpaGroupConfigGroupKeys]
  split <;> rfl

theorem wpaGroupInitGmkAndCounter_sm (c : Ctx) :
    (wpaGroupInitGmkAndCounter cr env ap c).1.sm = c.sm := by
  rw [wpaGroupInitGmkAndCounter]
  split
  · rfl
  · dsimp only
    split <;> rfl

theorem wpaGroupFirstStation_sm (c : Ctx) : (wpaGroupFirstStation cr env ap c).sm = c.sm := by
  simp only [wpaGroupFirstStation]
  rw [wpaGroupConfigGroupKeys_sm, wpaGtkUpdate_sm, wpaGroupInitGmkAndCounter_sm]
  split <;> rfl

theorem ptkAuthentication2_eq (c : Ctx) :
    ∃ c1, Goes c c1 ∧ Entered .authentication2 c.sm c1.sm ∧
      ptkAuthentication2 cr env ap c = c1.drawn := by
  have h := enterPtk_goes .authentication2 (Goes.refl c)
  simp only [ptkAuthentication2]
  split
  · exact ⟨_, h, ⟨rfl, fun _ => rfl⟩, rfl⟩
  have h1 := wpaGroupFirstStation_goes cr env ap h
  have hsm := wpaGroupFirstStation_sm cr env ap (enterPtk .authentication2 c)
  generalize wpaGroupFirstStation cr env ap (enterPtk .authentication2 c) = c1 at h1 hsm ⊢
  refine ⟨_, h1.grp { c1.grp with firstStaSeen := true } rfl rfl (.inr ⟨rfl, BitVec.le_refl _⟩),
    ?_, rfl⟩
  dsimp only
  rw [hsm]
  exact ⟨rfl, fun _ => rfl⟩

-- What one step of the machine of the pairwise handshake can do: stay, make a transition that
-- neither draws an ANonce nor takes a frame, draw an ANonce, take message 2/4, take message 4/4
inductive PtkStep (c : Ctx) : Ctx → Prop where
  | stay {c' : Ctx} (hcalm : Calm c.sm)
      (hcalc : c.sm.ptkState = .ptkcalcnegotiating → c.sm.micVerified = false)
      (hgoes : Goes c c') (hsm : c'.sm = c.sm) : PtkStep c c'
  | enter {c' : Ctx} (hgoes : Goes c c') (henters : Enters c.sm c'.sm)
      (hchanged : c.sm.init = false → c'.sm.changed = true) : PtkStep c c'
  | draw {c' : Ctx} (hfrom : c.sm.reAuthenticationRequest = true ∨
      (Calm c.sm ∧ c.sm.ptkState = .authentication)) (hgoes : Goes c c')
      (hentered : Entered .authentication2 c.sm c'.sm) : PtkStep c c'.drawn
  | msg2 (hcalm : Calm c.sm) (hframe : c.sm.keyFrame = true)
      (hstate : c.sm.ptkState = .ptkstart ∨
        (c.sm.ptkState = .ptkcalcnegotiating ∧ c.sm.micVerified = false)) :
      PtkStep c (ptkPtkcalcnegotiating cr env ap c)
  | msg4 (hcalm : Calm c.sm) (hframe : c.sm.keyFrame = true) (hmic : c.sm.micVerified = true)
      (hstate : c.sm.ptkState = .ptkinitnegotiating) : PtkStep c (ptkPtkinitdone env ap c)

namespace PtkStep

variable {cr : Crypto} {env : Env} {ap : Ap} {c c' : Ctx}

theorem of_entered (st : PtkState) (hgoes : Goes c c') (h : Entered st c.sm c'.sm)
    (henters : c'.sm.ptkState = st → Enters c.sm c'.sm) : PtkStep cr env ap c c' :=
  .enter hgoes (henters h.1) h.2

theorem toInitialize : PtkStep cr env ap c (ptkInitialize c) := by
  obtain ⟨h, hvalid⟩ := ptkInitialize_entered c
  refine of_entered .ptkInitialize (ptkInitialize_goes (.refl c)) h fun hst => ?_
  rw [Enters, hst]
  exact hvalid

theorem disconnect (hgoes : Goes c c') : PtkStep cr env ap c (ptkDisconnect c') :=
  .enter (ptkDisconnect_goes hgoes) trivial fun _ => rfl

theorem disconnected : PtkStep cr env ap c (ptkDisconnected c) :=
  .enter (ptkDisconnected_goes (.refl c)) trivial fun _ => rfl

theorem start (hfrom : c.sm.ptkRequest = true ∨ c.sm.ptkState = .initpmk ∨
      c.sm.ptkState = .initpsk ∨ c.sm.ptkState = .ptkstart ∨
      (c.sm.ptkState = .ptkcalcnegotiating ∧ c.sm.micVerified = false)) (c1 : Ctx)
    (hgoes : Goes c c1) (hsm : c1.sm = c.sm) : PtkStep cr env ap c (ptkPtkstart cr env ap c1) := by
  have h := ptkPtkstart_entered cr env ap c1
  rw [hsm] at h
  refine of_entered .ptkstart (ptkPtkstart_goes cr env ap hgoes) h fun hst => ?_
  rw [Enters, hst]
  exact hfrom

end PtkStep

theorem ptkStep_step (c : Ctx) : PtkStep cr env ap c (ptkStep cr env ap c) := by
  have hrefl := Goes.refl c
  simp only [ptkStep]
  by_cases hinit : c.sm.init = true
  · rw [if_pos hinit]
    exact .toInitialize
  rw [if_neg hinit]
  by_cases hdisc : c.sm.disconnect = true
  · rw [if_pos hdisc]
    exact .disconnect hrefl
  rw [if_neg hdisc]
  by_cases hdeauth : c.sm.deauthenticationRequest = true
  · rw [if_pos hdeauth]
    exact .disconnected
  rw [if_neg hdeauth]
  by_cases hauth : c.sm.authenticationRequest = true
  · rw [if_pos hauth]
    exact .enter (ptkAuthentication_goes hrefl) rfl fun _ => rfl
  rw [if_neg hauth]
  by_cases hreauth : c.sm.reAuthenticationRequest = true
  · rw [if_pos hreauth]
    obtain ⟨c1, h1, hentered, heq⟩ := ptkAuthentication2_eq cr env ap c
    rw [heq]
    exact .draw (.inl hreauth) h1 hentered
  rw [if_neg hreauth]
  by_cases hreq : c.sm.ptkRequest = true
  · rw [if_pos hreq]
    exact .start (.inl hreq) c hrefl rfl
  rw [if_neg hreq]
  simp only [Bool.not_eq_true] at hinit hdisc hdeauth hauth hreauth hreq
  have hcalm : Calm c.sm := ⟨hinit, hdisc, hdeauth, hauth, hreauth, hreq⟩
  have hstay (c' : Ctx) (hgoes : Goes c c') (hsm : c'.sm = c.sm)
      (hst : c.sm.ptkState ≠ .ptkcalcnegotiating) : PtkStep cr env ap c c' :=
    .stay hcalm (fun h => absurd h hst) hgoes hsm
  cases hst : c.sm.ptkState with
  | ptkInitialize => exact hstay c hrefl rfl (by simp [hst])
  | disconnect => exact .disconnected
  | disconnected => exact .toInitialize
  | authentication =>
    obtain ⟨c1, h1, hentered, heq⟩ := ptkAuthentication2_eq cr env ap c
    simp only [heq]
    exact .draw (.inr ⟨hcalm, hst⟩) h1 hentered
  | authentication2 =>
    dsimp only
    split
    · split
      · have h := ptkInitpmk_entered env c.ask
        exact .of_entered .initpmk (ptkInitpmk_goes env hrefl.ask) h fun hst' => by
          rw [Enters, hst']
          exact ⟨hcalm, hst⟩
      · exact hstay _ hrefl.ask rfl (by simp [hst])
    · split
      · have h := ptkInitpsk_entered env c
        exact .of_entered .initpsk (ptkInitpsk_goes env hrefl) h fun hst' => by
          rw [Enters, hst']
          exact ⟨hcalm, hst⟩
      · exact hstay c hrefl rfl (by simp [hst])
  | initpmk =>
    dsimp only
    split
    · exact .start (.inr (.inl hst)) c.ask hrefl.ask rfl
    · exact .disconnect hrefl.ask
  | initpsk =>
    dsimp only
    split
    · exact .start (.inr (.inr (.inl hst))) c.ask hrefl.ask rfl
    · exact .disconnect hrefl.ask
  | ptkstart =>
    dsimp only
    split
    · rename_i hframe
      exact .msg2 hcalm hframe (.inl hst)
    split
    · exact .disconnect hrefl
    split
    · exact .start (.inr (.inr (.inr (.inl hst)))) c hrefl rfl
    · exact hstay c hrefl rfl (by simp [hst])
  | ptkcalcnegotiating =>
    dsimp only
    split
    · rename_i hmic
      exact .enter (ptkPtkcalcnegotiating2_goes hrefl) ⟨hst, hmic⟩ fun _ => rfl
    rename_i hmic
    rw [Bool.not_eq_true] at hmic
    split
    · rename_i hframe
      exact .msg2 hcalm hframe (.inr ⟨hst, hmic⟩)
    split
    · exact .start (.inr (.inr (.inr (.inr ⟨hst, hmic⟩)))) c hrefl rfl
    · exact .stay hcalm (fun _ => hmic) hrefl rfl
  | ptkcalcnegotiating2 =>
    have h := ptkPtkinitnegotiating_entered cr env ap c
    exact .of_entered .ptkinitnegotiating (ptkPtkinitnegotiating_goes cr env ap hrefl) h
      fun hst' => by
        rw [Enters, hst']
        exact .inl hst
  | ptkinitnegotiating =>
    dsimp only
    split
    · rename_i h
      simp only [Bool.and_eq_true] at h
      exact .msg4 hcalm (by simp [Sta.keyFrame, h.1]) h.2 hst
    split
    · exact .disconnect hrefl
    split
    · have h := ptkPtkinitnegotiating_entered cr env ap c
      exact .of_entered .ptkinitnegotiating (ptkPtkinitnegotiating_goes cr env ap hrefl) h
        fun hst' => by
          rw [Enters, hst']
          exact .inr hst
    · exact hstay c hrefl rfl (by simp [hst])
  | ptkinitdone => exact hstay c hrefl rfl (by simp [hst])

def Ctx.calculating (c : Ctx) : Ctx :=
  let c := enterPtk .ptkcalcnegotiating c
  { c with sm := { c.sm with eapolKeyReceived := false } }.ask

-- The PTK of the station is the one computed from `pmk`.
def Ctx.derived (pmk : Octets) (c : Ctx) : Ctx :=
  { c.emit (.derivePtk (ptkInput ap c.sm pmk)) with
    sm := { c.sm with
      pending1of4Timeout := false
      eapolTimer := false
      pmk := pmk
      micVerified := true
      ptk := wpaDerivePtk cr ap c.sm pmk
      ptkValid := true } }

theorem calculating_goes (c : Ctx) : Goes c c.calculating :=
  ((enterPtk_goes .ptkcalcnegotiating (.refl c)).sta
    { (enterPtk .ptkcalcnegotiating c).sm with eapolKeyReceived := false }
    { Keeps.refl _ with received := by simp, disconnect := fun _ h => .inl h } rfl).ask

-- Either no key of the station fits the MIC of the frame, or the PTK is computed from one that
-- does.
theorem ptkPtkcalcnegotiating_cases (c : Ctx) :
    ptkPtkcalcnegotiating cr env ap c = c.calculating ∨
    ∃ f pmk, c.sm.lastRxEapolKey = some f ∧
      wpaVerifyKeyMic cr (wpaDerivePtk cr ap c.sm pmk) f = true ∧
      ptkPtkcalcnegotiating cr env ap c = c.calculating.derived cr ap pmk := by
  simp only [ptkPtkcalcnegotiating]
  split
  · exact .inl rfl
  rename_i f hf
  split
  · exact .inl rfl
  rename_i pmk hpmk
  have hmic := List.find?_some hpmk
  exact .inr ⟨f, pmk, hf, hmic, rfl⟩

-- The outputs of PTKINITDONE behind the history: the pairwise key goes to the driver, and the
-- port is opened.
def DoneOut (sm : Sta) (o : Out) : Prop :=
  Quiet o ∨ (∃ alg len, o = .setKey 0 alg sm.addr 0 (sm.ptk.tkOctets len)) ∨
    o = .setEapol sm.addr .authorized true ∨ o = .setEapol sm.addr .portValid true

structure Completes (c c' : Ctx) : Prop where
  fixed : c'.sm.fixed = c.sm.fixed
  core : c'.sm.core = { c.sm.core with
    nonce := { c.sm.nonce with used := true }, eapolKeyReceived := false, changed := true }
  state : c'.sm.ptkState = .ptkinitdone
  flag : c'.sm.gUpdateStationKeys = c.sm.gUpdateStationKeys
  grp : c'.grp = c.grp
  emitted : ∃ l, c'.out = c.out ++
      .ptkInitDone c.sm.addr c.sm.anonce (c.sm.anonceOrigin.getD ⟨0, 0⟩) :: l ∧
    ∀ o ∈ l, DoneOut c.sm o

variable {c c1 : Ctx}

theorem ptkPtkinitdoneRest_completes (h : Completes c c1) : Completes c (ptkPtkinitdoneRest c1) := by
  obtain ⟨l, hl, hall⟩ := h.emitted
  have haddr : c1.sm.addr = c.sm.addr := congrArg StaFixed.addr h.fixed
  refine ⟨h.fixed, h.core, h.state, h.flag, h.grp,
    l ++ [.setEapol c.sm.addr .portValid true, .setEapol c.sm.addr .keyAvailable false,
      .setEapol c.sm.addr .keyDone true], ?_, ?_⟩
  · simp only [ptkPtkinitdoneRest, wpaAuthSetEapol, Ctx.emit, hl, haddr]
    simp
  · intro o ho
    simp only [List.mem_append, List.mem_cons, List.not_mem_nil, or_false] at ho
    rcases ho with ho | rfl | rfl | rfl
    · exact hall o ho
    · exact .inr (.inr (.inr rfl))
    · exact .inl (by simp [Quiet])
    · exact .inl (by simp [Quiet])

theorem Completes.ask (h : Completes c c1) : Completes c c1.ask :=
  ⟨h.fixed, h.core, h.state, h.flag, h.grp, h.emitted⟩

theorem Completes.emit (h : Completes c c1) (o : Out) (ho : DoneOut c.sm o) : Completes c (c1.emit o) := by
  obtain ⟨l, hl, hall⟩ := h.emitted
  refine ⟨h.fixed, h.core, h.state, h.flag, h.grp, l ++ [o], by simp [Ctx.emit, hl], ?_⟩
  intro x hx
  rcases List.mem_append.mp hx with hx | hx
  · exact hall x hx
  · exact (List.mem_singleton.mp hx) ▸ ho

theorem Completes.ite {c2 : Ctx} {p : Prop} [Decidable p] (h1 : Completes c c1) (h2 : Completes c c2) :
    Completes c (if p then c1 else c2) := by
  split
  · exact h1
  · exact h2

theorem Completes.sta (h : Completes c c1) (sm : Sta) (hfixed : sm.fixed = c1.sm.fixed)
    (hcore : sm.core = c1.sm.core) (hstate : sm.ptkState = c1.sm.ptkState)
    (hflag : sm.gUpdateStationKeys = c1.sm.gUpdateStationKeys) : Completes c { c1 with sm := sm } :=
  ⟨hfixed.trans h.fixed, hcore.trans h.core, hstate.trans h.state, hflag.trans h.flag, h.grp,
    h.emitted⟩

theorem ptkPtkinitdone_completes (c : Ctx) : Completes c (ptkPtkinitdone env ap c) := by
  have h1 : Completes c { (enterPtk .ptkinitdone c).emit
      (.ptkInitDone c.sm.addr c.sm.anonce (c.sm.anonceOrigin.getD ⟨0, 0⟩)) with
      sm := { (enterPtk .ptkinitdone c).sm with eapolKeyReceived := false, anonceUsed := true } } :=
    ⟨rfl, rfl, rfl, rfl, rfl, [], rfl, by simp⟩
  simp only [ptkPtkinitdone]
  split
  · have h2 (alg : WpaAlg) (len : ℕ) :=
      h1.ask.emit (.setKey 0 alg c.sm.addr 0 (c.sm.ptk.tkOctets len)) (.inr (.inl ⟨_, _, rfl⟩))
    split
    · exact (h2 _ _).emit (.disconnect c.sm.addr) (.inl trivial)
    refine ptkPtkinitdoneRest_completes (.ite ?_ ?_)
    · refine Completes.emit ?_ (.setEapol c.sm.addr .authorized true) (.inr (.inr (.inl rfl)))
      exact (h2 _ _).sta _ rfl rfl rfl rfl
    · exact (h2 _ _).sta _ rfl rfl rfl rfl
  · exact ptkPtkinitdoneRest_completes h1

theorem groupRekeySend_ptkState (rsc : BitVec 64) (c : Ctx) :
    (groupRekeySend cr env ap rsc c).sm.ptkState = c.sm.ptkState := by
  have hsend (keyInfo : KeyInfo) (nonce : Option Nonce) (kde : Option Octets) (keyidx : ℕ)
      (c1 : Ctx) (h : c1.sm.ptkState = c.sm.ptkState) :
      (wpaSendEapol cr env ap keyInfo (some rsc) nonce kde keyidx true c1).sm.ptkState =
        c.sm.ptkState := by
    obtain ⟨keyReplay, pending, hsm⟩ :=
      wpaSendEapol_sm cr env ap keyInfo (some rsc) nonce kde keyidx true c1
    rw [hsm]
    exact h
  have h1 := congrArg Sta.ptkState (sentGtk_sm env ap c)
  simp only [groupRekeySend]
  split
  · rename_i c1 hc1
    rwa [hc1] at h1
  rename_i gtk c1 hc1
  rw [hc1] at h1
  split
  · split
    · exact h1
    refine hsend _ _ _ _ _ ?_
    rw [ieee80211wKdeAdd_sm]
    exact h1
  · exact hsend _ _ _ _ _ h1

theorem groupRekeynegotiating_ptkState (c : Ctx) :
    (groupRekeynegotiating cr env ap c).sm.ptkState = c.sm.ptkState := by
  simp only [groupRekeynegotiating]
  split
  · rfl
  split
  · rw [groupRekeySend_ptkState]
    rfl
  · rw [groupRekeySend_ptkState]
    rfl

theorem ptkGroupStep_ptkState (c : Ctx) :
    (ptkGroupStep cr env ap c).sm.ptkState = c.sm.ptkState := by
  simp only [ptkGroupStep]
  split
  · rfl
  split
  · split
    · exact groupRekeynegotiating_ptkState cr env ap c
    · rfl
  · split
    · rfl
    split
    · rfl
    split
    · exact groupRekeynegotiating_ptkState cr env ap c
    · rfl
  · rfl
  · rfl

theorem drawn_moves (h : Moves c.sm c.grp c1.sm c1.grp) : Moves c.sm c.grp c1.drawn.sm c1.drawn.grp := by
  refine h.trans ⟨?_, ?_, ?_, id⟩
  · rw [Ctx.drawn, incCounter_fixed]
  · simp only [Ctx.drawn, incCounter_gKeyDoneStations, Sta.pendingUpdate]
    rfl
  · exact clockLe_incCounter _

-- Every step keeps what the machines never change, and accounts for its group.
theorem PtkStep.moves {c' : Ctx} (h : PtkStep cr env ap c c') :
    c'.sm.fixed = c.sm.fixed ∧ Moves c.sm c.grp c'.sm c'.grp := by
  cases h with
  | stay hcalm hcalc hgoes hsm => exact ⟨hgoes.rel.1.fixed, hgoes.rel.2⟩
  | enter hgoes henters hchanged => exact ⟨hgoes.rel.1.fixed, hgoes.rel.2⟩
  | draw hfrom hgoes hentered => exact ⟨hgoes.rel.1.fixed, drawn_moves hgoes.rel.2⟩
  | msg2 hcalm hframe hstate =>
    have hgoes := calculating_goes c
    rcases ptkPtkcalcnegotiating_cases cr env ap c with heq | ⟨f, pmk, -, -, heq⟩
    · rw [heq]
      exact ⟨hgoes.rel.1.fixed, hgoes.rel.2⟩
    · rw [heq]
      exact ⟨hgoes.rel.1.fixed, hgoes.rel.2.trans ⟨rfl, rfl, .refl _, id⟩⟩
  | msg4 hcalm hframe hmic hstate =>
    have hdone := ptkPtkinitdone_completes env ap c
    refine ⟨hdone.fixed, congrArg Group.fixed hdone.grp, ?_, hdone.grp ▸ .refl _,
      hdone.flag.symm.trans⟩
    rw [hdone.grp, Sta.pendingUpdate, Sta.pendingUpdate, hdone.flag]

end Transitions

end WpaSupplicant.Authenticator

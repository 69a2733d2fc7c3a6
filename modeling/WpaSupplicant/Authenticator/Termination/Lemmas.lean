import WpaSupplicant.Authenticator.Step.Lemmas

namespace WpaSupplicant.Authenticator

open Lib.Octets Lib.Window KeyData

structure Drive where
  init : Bool
  state : PtkState
  groupState : PtkGroupState
  disconnect : Bool
  deauthentication : Bool
  authentication : Bool
  reAuthentication : Bool
  request : Bool
  timeout : Bool
  received : Bool
  initAKeys : Bool
  groupInit : Bool
  update : Bool
  gTimeoutCtr : ℕ
  changed : Bool
  deriving DecidableEq

def Sta.drive (sm : Sta) : Drive where
  init := sm.init
  state := sm.ptkState
  groupState := sm.ptkGroupState
  disconnect := sm.disconnect
  deauthentication := sm.deauthenticationRequest
  authentication := sm.authenticationRequest
  reAuthentication := sm.reAuthenticationRequest
  request := sm.ptkRequest
  timeout := sm.timeoutEvt
  received := sm.eapolKeyReceived
  initAKeys := sm.wpa = some .wpa && sm.pInitAKeys
  groupInit := sm.ptkGroupInit
  update := sm.gUpdateStationKeys
  gTimeoutCtr := sm.gTimeoutCtr
  changed := sm.changed

-- The same with the mark of the group
def Ctx.drive (c : Ctx) : Drive × Bool := (c.sm.drive, c.grp.changed)

-- How far a state is from one that the machine rests in
def PtkState.work : PtkState → ℕ
  | .ptkInitialize | .ptkinitdone => 0
  | .disconnected => 1
  | .disconnect => 2
  | .ptkinitnegotiating => 11
  | .ptkcalcnegotiating2 => 12
  | .ptkcalcnegotiating => 13
  | .ptkstart => 14
  | .initpmk | .initpsk => 15
  | .authentication2 => 16
  | .authentication => 17

def groupWork (state : PtkGroupState) (update : Bool) (gTimeoutCtr : ℕ) : ℕ :=
  match state with
  | .idle => if update ∨ 4 ≤ gTimeoutCtr then 7 else 0
  | .rekeynegotiating => if gTimeoutCtr ≤ 4 then 6 else 5
  | .keyerror | .rekeyestablished => if update then 8 else 1

-- An upper bound on the states that are still entered. A flag counts for more than the state that it leads to, and
-- `Init` stops the machines.
def Drive.work (d : Drive) : ℕ :=
  if d.init then 0
  else
    d.state.work + 3 * d.disconnect.toNat + 2 * d.deauthentication.toNat + 18 * d.authentication.toNat +
      17 * d.reAuthentication.toNat + 15 * d.request.toNat + 2 * d.timeout.toNat + d.received.toNat +
      8 * d.initAKeys.toNat + 20 * d.groupInit.toNat + groupWork d.groupState d.update d.gTimeoutCtr

theorem groupWork_clear (state : PtkGroupState) (update : Bool) (n : ℕ) :
    groupWork state false n ≤ groupWork state update n := by
  cases state <;> cases update <;>
    simp only [groupWork, Bool.false_eq_true, false_or, true_or, if_true, if_false, le_refl]
  · split <;> omega
  · omega
  · omega

theorem groupWork_le (state : PtkGroupState) (update : Bool) (n : ℕ) :
    groupWork state update n ≤ groupWork state false n + 7 := by
  cases state <;> cases update <;> simp [groupWork]

section Entries

variable (cr : Crypto) (env : Env) (ap : Ap) (c : Ctx)

theorem incCounter_changed (g : Group) : g.incCounter.changed = g.changed := by
  simp only [Group.incCounter]

theorem wpaSendEapol_drive (keyInfo : KeyInfo) (rsc : Option (BitVec 64)) (nonce : Option Nonce) (kde : Option Octets)
    (keyidx : ℕ) (encr : Bool) : (wpaSendEapol cr env ap keyInfo rsc nonce kde keyidx encr c).drive = c.drive := by
  rcases wpaSendEapolRaw_cases cr env ap keyInfo rsc nonce kde keyidx encr c with
    ⟨-, heq⟩ | ⟨-, grp, tick, out, heq, hgrp, -⟩
  · simp only [wpaSendEapol, heq]
    rfl
  simp only [wpaSendEapol, heq]
  rcases hgrp with rfl | rfl
  · rfl
  have hchanged := incCounter_changed c.grp
  generalize c.grp.incCounter = g at hchanged ⊢
  exact Prod.ext rfl hchanged

theorem initAKeys_cleared (sm : Sta) : (sm.wpa = some .wpa && (sm.pInitAKeys && sm.wpa ≠ some .wpa)) = false := by
  by_cases hwpa : sm.wpa = some .wpa <;> simp [hwpa]

theorem ptkInitialize_drive : (ptkInitialize c).drive =
    ({ c.sm.drive with state := .ptkInitialize, update := false, initAKeys := false, changed := !c.sm.init },
      c.grp.changed) := by
  have hgrp : (clearGUpdate c).grp.changed = c.grp.changed := by
    simp only [clearGUpdate]
    split <;> rfl
  have h : (ptkInitialize c).drive =
      ({ c.sm.drive with
          state := .ptkInitialize
          update := false
          initAKeys := c.sm.wpa = some .wpa && (c.sm.pInitAKeys && c.sm.wpa ≠ some .wpa)
          changed := !c.sm.init }, (clearGUpdate c).grp.changed) := by
    simp only [ptkInitialize]
    split <;> rfl
  rw [h, initAKeys_cleared, hgrp]

theorem ptkDisconnect_drive : (ptkDisconnect c).drive =
    ({ c.sm.drive with state := .disconnect, disconnect := false, changed := true }, c.grp.changed) := rfl

theorem ptkDisconnected_drive : (ptkDisconnected c).drive =
    ({ c.sm.drive with state := .disconnected, deauthentication := false, changed := true }, c.grp.changed) := rfl

theorem ptkAuthentication_drive : (ptkAuthentication c).drive =
    ({ c.sm.drive with state := .authentication, authentication := false, changed := true }, c.grp.changed) := rfl

theorem wpaGtkUpdate_changed : (wpaGtkUpdate cr env ap c).grp.changed = c.grp.changed := by
  simp only [wpaGtkUpdate]
  have h1 := incCounter_changed { c.grp with gnonce := c.grp.counter }
  dsimp only at h1
  generalize Group.incCounter { c.grp with gnonce := c.grp.counter } = g1 at h1 ⊢
  split
  · exact h1
  have h2 := incCounter_changed { g1 with
    gtk := Function.update g1.gtk g1.gn
      (wpaGmkToGtk cr env ap g1.gmk "Group key expansion" g1.gnonce c.tick g1.gtkLen)
    gnonce := g1.counter }
  dsimp only at h2
  dsimp only [Ctx.ask]
  generalize Group.incCounter _ = g2 at h2 ⊢
  exact h2.trans h1

theorem wpaGroupConfigGroupKeys_grp : (wpaGroupConfigGroupKeys ap c).grp = c.grp := by
  simp only [wpaGroupConfigGroupKeys]
  split <;> rfl

theorem wpaGroupInitGmkAndCounter_changed :
    (wpaGroupInitGmkAndCounter cr env ap c).1.grp.changed = c.grp.changed := by
  rw [wpaGroupInitGmkAndCounter]
  split
  · rfl
  · dsimp only
    split <;> rfl

theorem wpaGroupFirstStation_drive : (wpaGroupFirstStation cr env ap c).drive = c.drive := by
  refine Prod.ext (congrArg Sta.drive (wpaGroupFirstStation_sm cr env ap c)) ?_
  simp only [Ctx.drive, wpaGroupFirstStation]
  rw [wpaGroupConfigGroupKeys_grp, wpaGtkUpdate_changed, wpaGroupInitGmkAndCounter_changed]
  split <;> rfl

theorem ptkAuthentication2_drive : (ptkAuthentication2 cr env ap c).drive =
    ({ c.sm.drive with state := .authentication2, reAuthentication := false, changed := true }, c.grp.changed) := by
  have hdraw (c1 : Ctx)
      (h : c1.drive = ({ c.sm.drive with state := .authentication2, changed := true }, c.grp.changed)) :
      c1.drawn.drive =
        ({ c.sm.drive with state := .authentication2, reAuthentication := false, changed := true }, c.grp.changed) := by
    have hchanged := incCounter_changed c1.grp
    rw [Ctx.drawn]
    generalize c1.grp.incCounter = g at hchanged ⊢
    refine Prod.ext ?_ (hchanged.trans (congrArg Prod.snd h))
    exact congrArg (fun d : Drive => { d with reAuthentication := false }) (congrArg Prod.fst h)
  simp only [ptkAuthentication2]
  split
  · exact hdraw (enterPtk .authentication2 c) rfl
  refine hdraw { wpaGroupFirstStation cr env ap (enterPtk .authentication2 c) with
    grp := { (wpaGroupFirstStation cr env ap (enterPtk .authentication2 c)).grp with firstStaSeen := true } } ?_
  exact wpaGroupFirstStation_drive cr env ap (enterPtk .authentication2 c)

theorem ptkInitpmk_drive : (ptkInitpmk env c).drive =
    ({ c.sm.drive with state := .initpmk, changed := true }, c.grp.changed) := by
  simp only [ptkInitpmk]
  split
  · rfl
  · split <;> rfl

theorem ptkInitpsk_drive : (ptkInitpsk env c).drive =
    ({ c.sm.drive with state := .initpsk, changed := true }, c.grp.changed) := by
  simp only [ptkInitpsk]
  split <;> rfl

theorem ptkPtkstart_drive : (ptkPtkstart cr env ap c).drive =
    ({ c.sm.drive with state := .ptkstart, request := false, timeout := false, changed := true }, c.grp.changed) := by
  simp only [ptkPtkstart]
  split
  · rfl
  · rw [wpaSendEapol_drive]
    rfl

theorem ptkPtkcalcnegotiating_drive : (ptkPtkcalcnegotiating cr env ap c).drive =
    ({ c.sm.drive with state := .ptkcalcnegotiating, received := false, changed := true }, c.grp.changed) := by
  simp only [ptkPtkcalcnegotiating]
  split
  · rfl
  · split <;> rfl

theorem ptkPtkcalcnegotiating2_drive : (ptkPtkcalcnegotiating2 c).drive =
    ({ c.sm.drive with state := .ptkcalcnegotiating2, changed := true }, c.grp.changed) := rfl

theorem sentGtk_drive : (sentGtk env ap c).2.drive = c.drive := by
  rw [sentGtk]
  split <;> rfl

theorem ieee80211wKdeAdd_drive : (ieee80211wKdeAdd env ap c).2.drive = c.drive := by
  rw [ieee80211wKdeAdd]
  split
  · rfl
  dsimp only
  split <;> split <;> try split
  all_goals rfl

theorem ptkPtkinitnegotiating_drive : (ptkPtkinitnegotiating cr env ap c).drive =
    ({ c.sm.drive with state := .ptkinitnegotiating, timeout := false, changed := true }, c.grp.changed) := by
  simp only [ptkPtkinitnegotiating]
  split
  · rfl
  split
  · split
    · rename_i c1 hc1
      exact (congrArg (fun r => r.2.drive) hc1).symm.trans (sentGtk_drive env ap _)
    rename_i gtk c1 hc1
    have hdrive := (congrArg (fun r => r.2.drive) hc1).symm.trans (sentGtk_drive env ap _)
    split
    · exact hdrive
    · rw [wpaSendEapol_drive, ieee80211wKdeAdd_drive]
      exact hdrive
  · split
    · rfl
    · rw [wpaSendEapol_drive, ieee80211wKdeAdd_drive]
      rfl

def GroupPart (c c' : Ctx) : Prop :=
  c'.sm.ptkGroupState = c.sm.ptkGroupState ∧ c'.sm.timeoutEvt = c.sm.timeoutEvt ∧
    c'.sm.ptkGroupInit = c.sm.ptkGroupInit ∧ c'.sm.gTimeoutCtr = c.sm.gTimeoutCtr

theorem ptkPtkinitdone_group : GroupPart c (ptkPtkinitdone env ap c) := by
  have hrest (p : Prop) [Decidable p] (c1 : Ctx) (h : GroupPart c c1) :
      GroupPart c (ptkPtkinitdoneRest (if p then wpaAuthSetEapol .authorized true c1 else c1)) := by
    split <;> exact h
  simp only [ptkPtkinitdone]
  split
  · split
    · exact ⟨rfl, rfl, rfl, rfl⟩
    · exact hrest _ _ ⟨rfl, rfl, rfl, rfl⟩
  · exact ⟨rfl, rfl, rfl, rfl⟩

theorem ptkPtkinitdone_drive : (ptkPtkinitdone env ap c).drive =
    ({ c.sm.drive with
        state := .ptkinitdone
        received := false
        initAKeys := (ptkPtkinitdone env ap c).sm.drive.initAKeys
        changed := true }, c.grp.changed) := by
  have h := ptkPtkinitdone_completes env ap c
  obtain ⟨hgroup, htimeout, hinit, hctr⟩ := ptkPtkinitdone_group env ap c
  refine Prod.ext ?_ (congrArg Group.changed h.grp)
  generalize ptkPtkinitdone env ap c = c' at h hgroup htimeout hinit hctr ⊢
  have hcore {α : Type} (f : StaCore → α) := congrArg f h.core
  rw [Drive.mk.injEq]
  exact ⟨congrArg StaFixed.init h.fixed, h.state, hgroup, hcore StaCore.disconnect,
    hcore StaCore.deauthenticationRequest, hcore StaCore.authenticationRequest, hcore StaCore.reAuthenticationRequest,
    hcore StaCore.ptkRequest, htimeout, hcore StaCore.eapolKeyReceived, rfl, hinit, h.flag, hctr, hcore StaCore.changed⟩

theorem groupIdle_drive : (groupIdle c).drive =
    ({ c.sm.drive with groupState := .idle, gTimeoutCtr := 0, changed := !c.sm.init }, c.grp.changed) := rfl

theorem groupRekeySend_drive (rsc : BitVec 64) : (groupRekeySend cr env ap rsc c).drive = c.drive := by
  have h1 := sentGtk_drive env ap c
  simp only [groupRekeySend]
  split
  · rename_i c1 hc1
    rwa [hc1] at h1
  rename_i gtk c1 hc1
  rw [hc1] at h1
  split
  · split
    · exact h1
    · rw [wpaSendEapol_drive, ieee80211wKdeAdd_drive]
      exact h1
  · rw [wpaSendEapol_drive]
    exact h1

theorem groupRekeynegotiating_last (h : groupUpdateCount < c.sm.gTimeoutCtr + 1) :
    (groupRekeynegotiating cr env ap c).drive =
      ({ c.sm.drive with groupState := .rekeynegotiating, gTimeoutCtr := c.sm.gTimeoutCtr + 1, changed := true },
        c.grp.changed) := by
  simp only [groupRekeynegotiating]
  split
  · rfl
  · rename_i hnot
    exact absurd h hnot

theorem groupRekeynegotiating_again (h : ¬groupUpdateCount < c.sm.gTimeoutCtr + 1) :
    (groupRekeynegotiating cr env ap c).drive =
      ({ c.sm.drive with
          groupState := .rekeynegotiating
          gTimeoutCtr := c.sm.gTimeoutCtr + 1
          initAKeys := false
          timeout := false
          changed := true }, c.grp.changed) := by
  have hdrive : (groupRekeynegotiating cr env ap c).drive =
      ({ c.sm.drive with
          groupState := .rekeynegotiating
          gTimeoutCtr := c.sm.gTimeoutCtr + 1
          initAKeys := c.sm.wpa = some .wpa && (c.sm.pInitAKeys && c.sm.wpa ≠ some .wpa)
          timeout := false
          changed := true }, c.grp.changed) := by
    simp only [groupRekeynegotiating]
    split
    · rename_i hlast
      exact absurd hlast h
    split
    · rw [groupRekeySend_drive]
      rfl
    · rw [groupRekeySend_drive]
      rfl
  rw [hdrive, initAKeys_cleared]

theorem clearGUpdate_drive : (clearGUpdate c).drive = ({ c.sm.drive with update := false }, c.grp.changed) := by
  simp only [clearGUpdate]
  split <;> rfl

theorem groupRekeyestablished_drive : (groupRekeyestablished c).drive =
    ({ c.sm.drive with
        groupState := .rekeyestablished, received := false, update := false, gTimeoutCtr := 0, changed := true },
      c.grp.changed) := by
  have h := clearGUpdate_drive { enterPtkGroup .rekeyestablished c with
    sm := { (enterPtkGroup .rekeyestablished c).sm with eapolKeyReceived := false } }
  simp only [groupRekeyestablished]
  generalize clearGUpdate _ = c1 at h ⊢
  have hgrp := congrArg Prod.snd h
  have hsm := congrArg (fun d : Drive => { d with gTimeoutCtr := 0 }) (congrArg Prod.fst h)
  exact Prod.ext hsm hgrp

theorem groupKeyerror_drive : (groupKeyerror c).drive =
    ({ c.sm.drive with groupState := .keyerror, update := false, disconnect := true, changed := true },
      c.grp.changed) := by
  have h := clearGUpdate_drive (enterPtkGroup .keyerror c)
  simp only [groupKeyerror]
  generalize clearGUpdate _ = c1 at h ⊢
  have hgrp := congrArg Prod.snd h
  have hsm := congrArg (fun d : Drive => { d with disconnect := true }) (congrArg Prod.fst h)
  exact Prod.ext hsm hgrp

end Entries

section Stations

variable (cr : Crypto) (env : Env) (ap : Ap) {c c' : Ctx}

structure Pays (c c' : Ctx) : Prop where
  grp : c'.grp.changed = c.grp.changed
  le : c'.sm.drive.work ≤ c.sm.drive.work
  lt : c'.sm.changed = true → c.sm.changed = true ∨ c'.sm.drive.work < c.sm.drive.work

theorem Pays.trans {c'' : Ctx} (h : Pays c c') (h' : Pays c' c'') : Pays c c'' := by
  refine ⟨h'.grp.trans h.grp, h'.le.trans h.le, fun hchanged => ?_⟩
  have hle := h.le
  have hle' := h'.le
  rcases h'.lt hchanged with hbefore | hlt
  · rcases h.lt hbefore with hbefore | hlt
    · exact .inl hbefore
    · exact .inr (by omega)
  · exact .inr (by omega)

theorem Pays.same (h : c'.drive = c.drive) : Pays c c' := by
  have hsm : c'.sm.drive = c.sm.drive := congrArg Prod.fst h
  have hchanged : c'.sm.changed = c.sm.changed := congrArg Drive.changed hsm
  exact ⟨congrArg Prod.snd h, by rw [hsm], fun hc => .inl (by rw [← hchanged, hc])⟩

theorem Pays.enter {d : Drive} (h : c'.drive = (d, c.grp.changed)) (hlt : d.work < c.sm.drive.work) : Pays c c' := by
  have hsm : c'.sm.drive = d := congrArg Prod.fst h
  exact ⟨congrArg Prod.snd h, by rw [hsm]; omega, fun _ => .inr (by rw [hsm]; exact hlt)⟩

-- With `Init` set a state is entered without a mark.
theorem Pays.idle {d : Drive} (h : c'.drive = (d, c.grp.changed)) (hinit : d.init = true)
    (hchanged : d.changed = false) : Pays c c' := by
  have hsm : c'.sm.drive = d := congrArg Prod.fst h
  have hzero : c'.sm.drive.work = 0 := by rw [hsm, Drive.work, if_pos hinit]
  have hmark : c'.sm.changed = false := (congrArg Drive.changed hsm).trans hchanged
  refine ⟨congrArg Prod.snd h, by omega, fun hc => ?_⟩
  rw [hmark] at hc
  cases hc

theorem work_eq {d : Drive} (h : d.init = false) : d.work =
    d.state.work + 3 * d.disconnect.toNat + 2 * d.deauthentication.toNat + 18 * d.authentication.toNat +
      17 * d.reAuthentication.toNat + 15 * d.request.toNat + 2 * d.timeout.toNat + d.received.toNat +
      8 * d.initAKeys.toNat + 20 * d.groupInit.toNat + groupWork d.groupState d.update d.gTimeoutCtr := by
  rw [Drive.work, h]
  rfl

theorem ptkStep_pays (c : Ctx) : Pays c (ptkStep cr env ap c) := by
  simp only [ptkStep]
  by_cases hinit : c.sm.init = true
  · rw [if_pos hinit]
    exact .idle (ptkInitialize_drive c) hinit (by simp [hinit])
  rw [if_neg hinit]
  rw [Bool.not_eq_true] at hinit
  have hwork := work_eq (d := c.sm.drive) hinit
  by_cases hdisc : c.sm.disconnect = true
  · rw [if_pos hdisc]
    refine .enter (ptkDisconnect_drive c) ?_
    rw [work_eq hinit, hwork]
    simp only [Sta.drive, hdisc, PtkState.work, Bool.toNat_true, Bool.toNat_false]
    omega
  rw [if_neg hdisc]
  by_cases hdeauth : c.sm.deauthenticationRequest = true
  · rw [if_pos hdeauth]
    refine .enter (ptkDisconnected_drive c) ?_
    rw [work_eq hinit, hwork]
    simp only [Sta.drive, hdeauth, PtkState.work, Bool.toNat_true, Bool.toNat_false]
    omega
  rw [if_neg hdeauth]
  by_cases hauth : c.sm.authenticationRequest = true
  · rw [if_pos hauth]
    refine .enter (ptkAuthentication_drive c) ?_
    rw [work_eq hinit, hwork]
    simp only [Sta.drive, hauth, PtkState.work, Bool.toNat_true, Bool.toNat_false]
    omega
  rw [if_neg hauth]
  by_cases hreauth : c.sm.reAuthenticationRequest = true
  · rw [if_pos hreauth]
    refine .enter (ptkAuthentication2_drive cr env ap c) ?_
    rw [work_eq hinit, hwork]
    simp only [Sta.drive, hreauth, PtkState.work, Bool.toNat_true, Bool.toNat_false]
    omega
  rw [if_neg hreauth]
  by_cases hreq : c.sm.ptkRequest = true
  · rw [if_pos hreq]
    refine .enter (ptkPtkstart_drive cr env ap c) ?_
    rw [work_eq hinit, hwork]
    simp only [Sta.drive, hreq, PtkState.work, Bool.toNat_true, Bool.toNat_false]
    omega
  rw [if_neg hreq]
  -- What the states lead to: the state itself pays, together with a frame or a timeout where it waits for one.
  have hdisconnect (c1 : Ctx) (h : c1.drive = c.drive) (hst : 2 < c.sm.ptkState.work) : Pays c (ptkDisconnect c1) := by
    refine (Pays.same h).trans (.enter (ptkDisconnect_drive c1) ?_)
    have hsm : c1.sm.drive = c.sm.drive := congrArg Prod.fst h
    rw [hsm, work_eq hinit, hwork]
    simp only [Sta.drive, hdisc, PtkState.work, Bool.toNat_false] at hst ⊢
    omega
  have hstart (c1 : Ctx) (h : c1.drive = c.drive) (hst : 14 < c.sm.ptkState.work + 2 * c.sm.timeoutEvt.toNat) :
      Pays c (ptkPtkstart cr env ap c1) := by
    refine (Pays.same h).trans (.enter (ptkPtkstart_drive cr env ap c1) ?_)
    have hsm : c1.sm.drive = c.sm.drive := congrArg Prod.fst h
    rw [hsm, work_eq hinit, hwork]
    simp only [Sta.drive, hreq, PtkState.work, Bool.toNat_false] at hst ⊢
    omega
  have hcalc (hst : 13 < c.sm.ptkState.work + c.sm.eapolKeyReceived.toNat) :
      Pays c (ptkPtkcalcnegotiating cr env ap c) := by
    refine .enter (ptkPtkcalcnegotiating_drive cr env ap c) ?_
    rw [work_eq hinit, hwork]
    simp only [Sta.drive, PtkState.work, Bool.toNat_false] at hst ⊢
    omega
  have hnegotiate (hst : 11 < c.sm.ptkState.work + 2 * c.sm.timeoutEvt.toNat) :
      Pays c (ptkPtkinitnegotiating cr env ap c) := by
    refine .enter (ptkPtkinitnegotiating_drive cr env ap c) ?_
    rw [work_eq hinit, hwork]
    simp only [Sta.drive, PtkState.work, Bool.toNat_false] at hst ⊢
    omega
  have hsame : Pays c c := .same rfl
  have hreceived (h : (c.sm.eapolKeyReceived && !c.sm.eapolKeyRequest && c.sm.eapolKeyPairwise) = true) :
      c.sm.eapolKeyReceived = true := by
    rw [Bool.and_eq_true, Bool.and_eq_true] at h
    exact h.1.1
  cases hst : c.sm.ptkState with
  | ptkInitialize => exact hsame
  | disconnect =>
    refine .enter (ptkDisconnected_drive c) ?_
    rw [work_eq hinit, hwork]
    simp only [Sta.drive, hst, PtkState.work, Bool.toNat_false]
    omega
  | disconnected =>
    refine .enter (ptkInitialize_drive c) ?_
    have hclear := groupWork_clear c.sm.ptkGroupState c.sm.gUpdateStationKeys c.sm.gTimeoutCtr
    rw [work_eq hinit, hwork]
    simp only [Sta.drive, hst, PtkState.work, Bool.toNat_false]
    omega
  | authentication =>
    refine .enter (ptkAuthentication2_drive cr env ap c) ?_
    rw [work_eq hinit, hwork]
    simp only [Sta.drive, hst, PtkState.work, Bool.toNat_false]
    omega
  | authentication2 =>
    dsimp only
    split
    · split
      · have hsm : c.ask.sm.drive = c.sm.drive := rfl
        refine (Pays.same rfl).trans (.enter (ptkInitpmk_drive env c.ask) ?_)
        rw [hsm, work_eq hinit, hwork]
        simp only [Sta.drive, hst, PtkState.work]
        omega
      · exact .same rfl
    · split
      · refine .enter (ptkInitpsk_drive env c) ?_
        rw [work_eq hinit, hwork]
        simp only [Sta.drive, hst, PtkState.work]
        omega
      · exact hsame
  | initpmk | initpsk =>
    dsimp only
    split
    · exact hstart c.ask rfl (by rw [hst]; simp only [PtkState.work]; omega)
    · exact hdisconnect c.ask rfl (by rw [hst]; simp only [PtkState.work]; omega)
  | ptkstart =>
    dsimp only
    split
    · rename_i hframe
      exact hcalc (by rw [hst, hreceived hframe]; simp only [PtkState.work, Bool.toNat_true]; omega)
    split
    · exact hdisconnect c rfl (by rw [hst]; simp only [PtkState.work]; omega)
    split
    · rename_i htimeout
      exact hstart c rfl (by rw [hst, htimeout]; simp only [PtkState.work, Bool.toNat_true]; omega)
    · exact hsame
  | ptkcalcnegotiating =>
    dsimp only
    split
    · refine .enter (ptkPtkcalcnegotiating2_drive c) ?_
      rw [work_eq hinit, hwork]
      simp only [Sta.drive, hst, PtkState.work]
      omega
    split
    · rename_i hframe
      exact hcalc (by rw [hst, hreceived hframe]; simp only [PtkState.work, Bool.toNat_true]; omega)
    split
    · rename_i htimeout
      exact hstart c rfl (by rw [hst, htimeout]; simp only [PtkState.work, Bool.toNat_true]; omega)
    · exact hsame
  | ptkcalcnegotiating2 => exact hnegotiate (by rw [hst]; simp only [PtkState.work]; omega)
  | ptkinitnegotiating =>
    dsimp only
    split
    · have hkeys : (ptkPtkinitdone env ap c).sm.drive.initAKeys.toNat ≤ 1 := Bool.toNat_le _
      refine .enter (ptkPtkinitdone_drive env ap c) ?_
      rw [work_eq hinit, hwork]
      simp only [Sta.drive, hst, PtkState.work, Bool.toNat_false] at hkeys ⊢
      omega
    · split
      · exact hdisconnect c rfl (by rw [hst]; simp only [PtkState.work]; omega)
      split
      · rename_i htimeout
        exact hnegotiate (by rw [hst, htimeout]; simp only [PtkState.work, Bool.toNat_true]; omega)
      · exact hsame
  | ptkinitdone => exact hsame

theorem ptkGroupStep_pays (c : Ctx) : Pays c (ptkGroupStep cr env ap c) := by
  have hsame : Pays c c := .same rfl
  simp only [ptkGroupStep]
  by_cases hinit : c.sm.init = true
  · rw [if_pos (by rw [hinit, Bool.true_or])]
    refine Pays.idle (d := { c.sm.drive with
      groupState := .idle, gTimeoutCtr := 0, changed := !c.sm.init, groupInit := false }) rfl hinit ?_
    rw [hinit]
    rfl
  rw [Bool.not_eq_true] at hinit
  have hwork := work_eq (d := c.sm.drive) hinit
  rw [hinit, Bool.false_or]
  by_cases hgroup : c.sm.ptkGroupInit = true
  · rw [if_pos hgroup]
    refine Pays.enter (d := { c.sm.drive with
      groupState := .idle, gTimeoutCtr := 0, changed := !c.sm.init, groupInit := false }) rfl ?_
    have hle : groupWork .idle c.sm.gUpdateStationKeys 0 ≤ 0 + 7 := groupWork_le .idle c.sm.gUpdateStationKeys 0
    rw [work_eq hinit, hwork]
    simp only [Sta.drive, hgroup, Bool.toNat_true, Bool.toNat_false]
    omega
  rw [if_neg hgroup]
  have hidle (h : groupWork .idle c.sm.gUpdateStationKeys 0 <
      groupWork c.sm.ptkGroupState c.sm.gUpdateStationKeys c.sm.gTimeoutCtr) : Pays c (groupIdle c) := by
    refine .enter (groupIdle_drive c) ?_
    rw [work_eq hinit, hwork]
    simp only [Sta.drive]
    omega
  have hlast (hctr : groupUpdateCount < c.sm.gTimeoutCtr + 1)
      (h : 5 < groupWork c.sm.ptkGroupState c.sm.gUpdateStationKeys c.sm.gTimeoutCtr) :
      Pays c (groupRekeynegotiating cr env ap c) := by
    have hval : groupWork .rekeynegotiating c.sm.gUpdateStationKeys (c.sm.gTimeoutCtr + 1) = 5 := by
      rw [groupUpdateCount] at hctr
      rw [groupWork, if_neg (by omega)]
    refine .enter (groupRekeynegotiating_last cr env ap c hctr) ?_
    rw [work_eq hinit, hwork]
    simp only [Sta.drive, hval]
    omega
  have hagain (hctr : ¬groupUpdateCount < c.sm.gTimeoutCtr + 1)
      (h : 6 < groupWork c.sm.ptkGroupState c.sm.gUpdateStationKeys c.sm.gTimeoutCtr + 2 * c.sm.timeoutEvt.toNat +
        8 * (c.sm.wpa = some .wpa && c.sm.pInitAKeys : Bool).toNat) :
      Pays c (groupRekeynegotiating cr env ap c) := by
    have hval : groupWork .rekeynegotiating c.sm.gUpdateStationKeys (c.sm.gTimeoutCtr + 1) = 6 := by
      rw [groupUpdateCount] at hctr
      rw [groupWork, if_pos (by omega)]
    refine .enter (groupRekeynegotiating_again cr env ap c hctr) ?_
    rw [work_eq hinit, hwork]
    simp only [Sta.drive, hval, Bool.toNat_false]
    omega
  cases hst : c.sm.ptkGroupState with
  | idle =>
    dsimp only
    split
    · rename_i hkeys
      by_cases hctr : groupUpdateCount < c.sm.gTimeoutCtr + 1
      · refine hlast hctr ?_
        rw [groupUpdateCount] at hctr
        rw [hst, groupWork, if_pos (.inr (by omega))]
        omega
      refine hagain hctr ?_
      rw [Bool.or_eq_true] at hkeys
      rcases hkeys with hupdate | hkeys
      · rw [hst, groupWork, if_pos (.inl hupdate)]
        omega
      · rw [hkeys, Bool.toNat_true]
        omega
    · exact hsame
  | rekeynegotiating =>
    dsimp only
    have hpos : 5 ≤ groupWork c.sm.ptkGroupState c.sm.gUpdateStationKeys c.sm.gTimeoutCtr := by
      rw [hst, groupWork]
      split <;> omega
    split
    · refine .enter (groupRekeyestablished_drive c) ?_
      have hval : groupWork .rekeyestablished false 0 = 1 := rfl
      rw [work_eq hinit, hwork]
      simp only [Sta.drive, hval, Bool.toNat_false]
      omega
    · split
      · refine .enter (groupKeyerror_drive c) ?_
        have hval : groupWork .keyerror false c.sm.gTimeoutCtr = 1 := rfl
        rw [work_eq hinit, hwork]
        simp only [Sta.drive, hval, Bool.toNat_true]
        omega
      · split
        · rename_i hctr htimeout
          have hsix : groupWork c.sm.ptkGroupState c.sm.gUpdateStationKeys c.sm.gTimeoutCtr = 6 := by
            rw [groupUpdateCount] at hctr
            rw [hst, groupWork, if_pos (by omega)]
          by_cases hnext : groupUpdateCount < c.sm.gTimeoutCtr + 1
          · exact hlast hnext (by omega)
          · exact hagain hnext (by rw [htimeout, Bool.toNat_true]; omega)
        · exact hsame
  | keyerror | rekeyestablished =>
    exact hidle (by rw [hst]; cases c.sm.gUpdateStationKeys <;> simp [groupWork])

theorem roundFn_pays (c : Ctx) : (roundFn cr env ap c).grp.changed = c.grp.changed ∧
    (roundFn cr env ap c).sm.drive.work ≤ c.sm.drive.work ∧
    ((roundFn cr env ap c).sm.changed = true → (roundFn cr env ap c).sm.drive.work < c.sm.drive.work) := by
  have h := (ptkStep_pays cr env ap c.unmarked).trans (ptkGroupStep_pays cr env ap _)
  refine ⟨h.grp, h.le, fun hchanged => ?_⟩
  rcases h.lt hchanged with hbefore | hlt
  · cases hbefore
  · exact hlt

end Stations

end WpaSupplicant.Authenticator

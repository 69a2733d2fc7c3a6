import WpaSupplicant.Wps.Registrar

namespace WpaSupplicant.Wps

open Enrollee (refuse acceptControl)

-- What a Registrar has of external Registrars: `wps_upnp` with its subscribers, `ext_reg`, the types of the
-- messages in `upnp_msgs`, and whether there is an `event_cb`
structure Upnp where
  wpsUpnp : Bool := false
  subscribers : Bool := false
  extReg : ℕ := 0
  msgs : List (BitVec 8) := []
  eventCb : Bool := true
  deriving DecidableEq, Repr

def Upnp.external (u : Upnp) : Bool := u.wpsUpnp && u.extReg ≠ 0

-- The events that are told to `event_cb`
def Event.toCallback : Event → Bool
  | .fail _ _ _ => true
  | .success => true
  | .pwdAuthFail _ _ => true
  | .pbcOverlap => true
  | .m2d => true
  | .apPinSuccess => true
  | _ => false

-- The result of `wps_registrar_process_msg`, where `none` is `WPS_PENDING`, and whether the message was sent
-- to external Registrars
structure ExtResult where
  wps : WpsData
  upnp : Upnp
  res : Option ProcessRes
  events : List Event
  sent : Bool := false
  deriving DecidableEq

namespace Registrar

-- `wps_registrar_free_pending_m2`
def freePendingM2 (u : Upnp) : Upnp := { u with msgs := u.msgs.filter fun t => t ≠ m2 && t ≠ m2d }

def typeOf (msg : Octets) : Option (BitVec 8) := (parseMsg msg).bind ParseAttr.msgType

variable (c : Crypto) (env : Env) (ctx : Context) (wps : WpsData) (u : Upnp) (msg : Octets)

def startsRun : Bool :=
  u.wpsUpnp && (parseMsg msg).any fun attr => attr.msgType = some m1 && attr.macAddr.isSome

-- `wps_process_wsc_ack`
def processWscAckExt : ExtResult :=
  if typeOf msg ≠ some wscAck then ⟨wps, u, some .failure, [], false⟩
  else if u.external ∧ wps.state = .recvM2dAck ∧ u.subscribers then
    ⟨wps, u, if u.msgs ≠ [] then some .continue else none, [], false⟩
  else
    match acceptControl wps msg wscAck with
    | none => ⟨wps, u, some .failure, [], false⟩
    | some _ =>
      if wps.state = .recvM2dAck ∧ u.wpsUpnp ∧ u.subscribers then
        if u.msgs ≠ [] then ⟨wps, u, some .continue, [], false⟩
        else ⟨wps, { u with extReg := if u.extReg = 0 then 1 else u.extReg }, none, [], false⟩
      else ⟨wps, u, some .failure, [], false⟩

-- `wps_process_wsc_nack`
def processWscNackExt : WpsData × List Event :=
  if typeOf msg ≠ some wscNack then (refuse wps, [])
  else if u.external then (refuse wps, [])
  else ((processWscNack wps msg).1, (processWscNack wps msg).2.2)

-- `wps_process_wsc_done`
def processWscDoneExt : WpsData × ProcessRes × List Event :=
  if wps.state ≠ .recvDone ∧ ¬u.external then (wps, .failure, [])
  else if typeOf msg ≠ some wscDone then (wps, .failure, [])
  else if u.external then (wps, .done, [.deviceStore wps.uuidE])
  else
    match acceptControl wps msg wscDone with
    | none => (wps, .failure, [])
    | some _ =>
      let r := finish ctx wps
      (r.1, .done, r.2)

def endDoneExt : WpsData × ProcessRes × List Event :=
  let r := processWscDoneExt ctx wps u msg
  if r.2.1 = .failure then
    (refuse r.1, .failure, r.2.2 ++ [.fail wscDone r.1.configError r.1.errorIndication])
  else r

-- The switch of `wps_registrar_process_msg`. There is no `break` behind WSC_NACK.
def switchExt (opCode : OpCode) : ExtResult :=
  match opCode with
  | .msg =>
    let r := processWscMsg c env ctx wps msg
    ⟨r.1, if startsRun u msg then { u with msgs := [] } else u, some r.2.1, r.2.2, startsRun u msg⟩
  | .ack => processWscAckExt wps u msg
  | .nack =>
    let r := processWscNackExt wps u msg
    let r' := endDoneExt ctx r.1 u msg
    ⟨r'.1, u, some r'.2.1, r.2 ++ r'.2.2, false⟩
  | .done =>
    let r := endDoneExt ctx wps u msg
    ⟨r.1, u, some r.2.1, r.2.2, false⟩
  | _ => ⟨wps, u, some .failure, [], false⟩

-- M3 to an external Registrar ends the phase of M2 and M2D.
def pastM2 (opCode : OpCode) : Upnp :=
  let u := if u.wpsUpnp ∧ opCode = .msg ∧ u.extReg = 1 ∧ typeOf msg = some m3 then { u with extReg := 2 } else u
  if 1 < u.extReg then freePendingM2 u else u

-- `wps_registrar_process_msg`
def processMsgExt (opCode : OpCode) : ExtResult :=
  let u := pastM2 u msg opCode
  let sent := u.external && u.msgs = [] && (opCode = .msg || opCode = .done || opCode = .nack)
  let r : ExtResult :=
    if sent ∧ opCode = .msg then ⟨wps, u, none, [], false⟩
    else if u.external ∧ opCode = .msg then ⟨wps, u, some .continue, [], false⟩
    else switchExt c env ctx wps u msg opCode
  { r with
    sent := sent || r.sent
    events := r.events.filter fun e => u.eventCb || !e.toCallback }

section Internal

variable {c env ctx wps u msg}

theorem acceptControl_type {type : BitVec 8} {attr : ParseAttr} (h : acceptControl wps msg type = some attr) :
    typeOf msg = some type := by
  rw [acceptControl] at h
  cases hparse : parseMsg msg with
  | none =>
    rw [hparse] at h
    cases h
  | some a =>
    rw [hparse] at h
    dsimp only at h
    split at h
    · rename_i hmatch
      rw [typeOf, hparse]
      exact hmatch.1
    · cases h

theorem acceptControl_none {type : BitVec 8} (h : typeOf msg ≠ some type) :
    acceptControl wps msg type = none := by
  cases hacc : acceptControl wps msg type with
  | none => rfl
  | some attr => exact absurd (acceptControl_type hacc) h

theorem processWscNackExt_eq (h : u.external = false) :
    processWscNackExt wps u msg = ((processWscNack wps msg).1, (processWscNack wps msg).2.2) := by
  rw [processWscNackExt]
  by_cases htype : typeOf msg = some wscNack
  · simp [htype, h]
  · simp [htype, processWscNack, acceptControl_none htype]

theorem processWscDoneExt_eq (h : u.external = false) :
    processWscDoneExt ctx wps u msg = processWscDone ctx wps msg := by
  rw [processWscDoneExt, processWscDone]
  by_cases hstate : wps.state = .recvDone
  · by_cases htype : typeOf msg = some wscDone
    · cases acceptControl wps msg wscDone with
      | none => simp [hstate, htype, h]
      | some val => simp [hstate, htype, h]
    · simp [hstate, htype, acceptControl_none htype]
  · simp [hstate, h]

theorem endDoneExt_eq (h : u.external = false) : endDoneExt ctx wps u msg = endDone ctx wps msg := by
  rw [endDoneExt, endDone, processWscDoneExt_eq h]

theorem processWscAckExt_eq (h : u.wpsUpnp = false) :
    processWscAckExt wps u msg =
      ⟨(processWscAck wps msg).1, u, some (processWscAck wps msg).2.1, (processWscAck wps msg).2.2, false⟩ := by
  rw [processWscAckExt, processWscAck]
  by_cases htype : typeOf msg = some wscAck
  · simp only [htype, Upnp.external, h, ne_eq, not_true_eq_false, if_false, Bool.false_and, Bool.false_eq_true,
      false_and, and_false]
    cases acceptControl wps msg wscAck <;> rfl
  · simp [htype, acceptControl_none htype]

-- M3 that goes to an external Registrar does not change who does the registration.
theorem pastM2_frame (opCode : OpCode) :
    (pastM2 u msg opCode).wpsUpnp = u.wpsUpnp ∧ (pastM2 u msg opCode).eventCb = u.eventCb ∧
      (pastM2 u msg opCode).external = u.external := by
  have hfree : ∀ v : Upnp, (if 1 < v.extReg then freePendingM2 v else v).wpsUpnp = v.wpsUpnp ∧
      (if 1 < v.extReg then freePendingM2 v else v).eventCb = v.eventCb ∧
      (if 1 < v.extReg then freePendingM2 v else v).external = v.external := by
    intro v
    split <;> exact ⟨rfl, rfl, rfl⟩
  rw [pastM2]
  obtain ⟨h₁, h₂, h₃⟩ := hfree
    (if u.wpsUpnp ∧ opCode = .msg ∧ u.extReg = 1 ∧ typeOf msg = some m3 then { u with extReg := 2 } else u)
  rw [h₁, h₂, h₃]
  split
  · rename_i hm3
    exact ⟨rfl, rfl, by simp [Upnp.external, hm3.2.2.1]⟩
  · exact ⟨rfl, rfl, rfl⟩

-- Without UPnP this is the Registrar by itself.
theorem processMsgExt_eq (opCode : OpCode) (h : u.wpsUpnp = false) :
    ((processMsgExt c env ctx wps u msg opCode).wps, (processMsgExt c env ctx wps u msg opCode).res,
        (processMsgExt c env ctx wps u msg opCode).events) =
      ((processMsg c env ctx wps opCode msg).1, some (processMsg c env ctx wps opCode msg).2.1,
        (processMsg c env ctx wps opCode msg).2.2.filter fun e => u.eventCb || !e.toCallback) := by
  have hnone : u.external = false := by rw [Upnp.external, h, Bool.false_and]
  obtain ⟨hupnp, hcb, hext⟩ : _ ∧ _ ∧ (pastM2 u msg opCode).external = _ := pastM2_frame opCode
  rw [h] at hupnp
  rw [hnone] at hext
  rw [processMsgExt]
  generalize pastM2 u msg opCode = v at hupnp hcb hext
  simp only [hext, hcb, Bool.false_and, Bool.false_eq_true, false_and, if_false]
  cases opCode with
  | nack =>
    rw [switchExt, processWscNackExt_eq hext, endDoneExt_eq hext]
    rfl
  | done =>
    rw [switchExt, endDoneExt_eq hext]
    rfl
  | ack =>
    rw [switchExt, processWscAckExt_eq hupnp]
    rfl
  | _ => rfl

end Internal

section Nack

-- The message that the Enrollee refuses with a WSC_NACK in a state of the Registrar
def refusedMsg : State → Option (BitVec 8)
  | .recvM3 => some m2
  | .recvM5 => some m4
  | .recvM7 => some m6
  | .recvDone => some m8
  | _ => none

-- A WSC_NACK ends the registration, and no more than that.
structure OnlyEnds (state : State) (r : ExtResult) : Prop where
  res : r.res = some .failure
  device : ∀ uuid, .deviceStore uuid ∉ r.events
  psk : ∀ addr psk, .newPsk addr psk ∉ r.events
  once : (r.events.countP fun e => e matches .fail _ _ _) ≤ 1
  names : ∀ type error indication, .fail type error indication ∈ r.events → refusedMsg state = some type

def DoneAsNack (u : Upnp) (msg : Octets) : Prop := u.external = true ∧ typeOf msg = some wscDone

variable {c env ctx wps u msg}

theorem processWscNackExt_state : (processWscNackExt wps u msg).1 = refuse wps := by
  rw [processWscNackExt]
  split_ifs
  · rfl
  · rfl
  · rw [processWscNack]
    split <;> rfl

theorem nackEvents_fail (e : Event) (he : e ∈ (processWscNackExt wps u msg).2) : e.toCallback = true := by
  rw [processWscNackExt] at he
  split_ifs at he
  · cases he
  · cases he
  rw [processWscNack] at he
  split at he
  · cases he
  · rw [nackEvent] at he
    split at he <;> simp at he <;> rw [he] <;> rfl

theorem endDoneExt_refused :
    endDoneExt ctx (refuse wps) u msg =
      if u.external ∧ typeOf msg = some wscDone then (refuse wps, .done, [.deviceStore wps.uuidE])
      else (refuse wps, .failure, [.fail wscDone wps.configError wps.errorIndication]) := by
  have hstate : (refuse wps).state ≠ .recvDone := by simp [refuse]
  rw [endDoneExt, processWscDoneExt]
  by_cases hext : u.external = true
  · by_cases htype : typeOf msg = some wscDone
    · simp [hext, htype]
      rfl
    · simp [hext, htype]
      exact ⟨rfl, rfl, rfl⟩
  · simp [hext, hstate]
    exact ⟨rfl, rfl, rfl⟩

theorem processMsgExt_nack :
    (processMsgExt c env ctx wps u msg .nack).res = some (endDoneExt ctx (refuse wps) u msg).2.1 ∧
      (processMsgExt c env ctx wps u msg .nack).events =
        ((processWscNackExt wps u msg).2 ++ (endDoneExt ctx (refuse wps) u msg).2.2).filter
          fun e => u.eventCb || !e.toCallback := by
  obtain ⟨hupnp, hcb, hext⟩ : _ ∧ _ ∧ (pastM2 u msg .nack).external = _ := pastM2_frame .nack
  have hnack : processWscNackExt wps (pastM2 u msg .nack) msg = processWscNackExt wps u msg := by
    rw [processWscNackExt, processWscNackExt, hext]
  have hdone : ∀ w, endDoneExt ctx w (pastM2 u msg .nack) msg = endDoneExt ctx w u msg := by
    intro w
    rw [endDoneExt, endDoneExt, processWscDoneExt, processWscDoneExt, hext]
  rw [processMsgExt]
  simp only [reduceCtorEq, and_false, if_false, switchExt, hcb, hnack, hdone, processWscNackExt_state]
  exact ⟨trivial, trivial⟩

-- A WSC_NACK only ends the registration exactly where nobody is told of the events, and no external Registrar is
-- told to be done.
theorem nack_only_ends :
    OnlyEnds wps.state (processMsgExt c env ctx wps u msg .nack) ↔ u.eventCb = false ∧ ¬DoneAsNack u msg := by
  obtain ⟨hres, hevents⟩ : _ ∧ (processMsgExt c env ctx wps u msg .nack).events = _ := processMsgExt_nack
  rw [endDoneExt_refused] at hres hevents
  by_cases hdone : u.external = true ∧ typeOf msg = some wscDone
  · rw [if_pos hdone] at hres
    constructor
    · intro h
      cases hres.symm.trans h.res
    · rintro ⟨-, h⟩
      exact absurd hdone h
  · rw [if_neg hdone] at hres hevents
    by_cases hcb : u.eventCb = true
    · constructor
      · intro h
        have hmem : Event.fail wscDone wps.configError wps.errorIndication ∈
            (processMsgExt c env ctx wps u msg .nack).events := by
          rw [hevents, hcb]
          simp
        have hname := h.names _ _ _ hmem
        cases hstate : wps.state <;> rw [hstate] at hname <;> simp [refusedMsg, wscDone, m2, m4, m6, m8] at hname
      · rintro ⟨hno, -⟩
        rw [hno] at hcb
        cases hcb
    · have hno : u.eventCb = false := by simpa using hcb
      have hnil : (processMsgExt c env ctx wps u msg .nack).events = [] := by
        rw [hevents, hno]
        apply List.filter_eq_nil_iff.mpr
        intro e he
        rcases List.mem_append.mp he with he | he
        · simp [nackEvents_fail e he]
        · rw [List.mem_singleton.mp he]
          simp [Event.toCallback]
      constructor
      · intro _
        exact ⟨hno, hdone⟩
      · intro _
        refine ⟨hres, ?_, ?_, ?_, ?_⟩
        all_goals rw [hnil]
        all_goals simp

def nackForM2 : Octets :=
  encode [(attrMsgType, [14]), (attrRegistrarNonce, List.replicate 16 0), (attrEnrolleeNonce, List.replicate 16 0),
    (attrConfigError, [0, 18])]

def doneAsNack : Octets := encode [(attrMsgType, [15])]

theorem nack_names_done :
    (processMsgExt lengthCrypto {} {} { registrar := true, state := .recvM3 } {} nackForM2 .nack).events =
        [.fail m2 18 0, .fail wscDone 0 0] ∧
      ¬OnlyEnds .recvM3
        (processMsgExt lengthCrypto {} {} { registrar := true, state := .recvM3 } {} nackForM2 .nack) ∧
      (processMsgExt lengthCrypto {} {} { registrar := true, state := .recvM3 } { wpsUpnp := true, extReg := 1 }
        doneAsNack .nack).res = some .done := by
  have hevents : (processMsgExt lengthCrypto {} {} { registrar := true, state := .recvM3 } {} nackForM2 .nack).events =
      [.fail m2 18 0, .fail wscDone 0 0] := rfl
  refine ⟨hevents, fun h => ?_, rfl⟩
  have honce := h.once
  rw [hevents] at honce
  exact absurd honce (by decide)

end Nack

end Registrar

end WpaSupplicant.Wps

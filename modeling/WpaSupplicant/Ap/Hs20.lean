import WpaSupplicant.Ap.StaTable
import WpaSupplicant.GasQuery

namespace WpaSupplicant.Ap

open GasQuery

-- `HS20_DIALOG_MAX`
abbrev Slot := Fin 8

-- `HS20_COMEBACK_DELAY_FUDGE` and `HS20_MIN_COMEBACK_DELAY`, in TU
def hs20ComebackDelayFudge : UInt16 := 10
def hs20MinComebackDelay : UInt16 := 100

def statusNoOutstandingGasReq : UInt16 := 60
def statusGasRespNotReceived : UInt16 := 61
def statusAdvSrvUnreachable : UInt16 := 65

-- The elements of an ANQP response that the external server has sent, by their bits
abbrev Remote := List (BitVec 32 × Octets)

-- `struct hs20_dialog_info`. `serial` numbers the exchanges and is history. The position of a slot
-- in its station is known wherever the code uses `index`.
structure Dialog where
  valid : Bool := false
  sdResp : Option Octets := none
  dialogToken : UInt8 := 0
  sdRespPos : ℕ := 0
  sdFragId : UInt8 := 0
  comebackDelay : UInt16 := 0
  remote : Remote := []
  requested : BitVec 32 := 0
  received : BitVec 32 := 0
  allRequested : BitVec 32 := 0
  serial : ℕ := 0
  deriving DecidableEq, Repr

-- What `struct sta_info` keeps for GAS
structure Dialogs where
  hs20Dialog : Slot → Dialog := fun _ => {}
  hs20DialogNext : Slot := 0

instance : Inhabited Dialogs := ⟨{}⟩

-- `hs20_dialog_info *`
structure DialogRef where
  sta : StaPtr
  slot : Slot
  deriving DecidableEq, Repr

inductive GasMsg where
  | initialResp (dialogToken : UInt8) (status comebackDelay : UInt16) (payload : Octets)
  | comebackResp (dialogToken : UInt8) (status : UInt16) (fragId : UInt8) (more : Bool)
      (payload : Octets)
  deriving DecidableEq, Repr

structure Sent where
  dst : Addr
  msg : GasMsg
  serial : Option ℕ
  deriving DecidableEq, Repr

-- A timer that was registered for `hs20_clear_cached_ies`, with the exchange it was armed for
structure HsTimer where
  dialog : DialogRef
  serial : ℕ
  deriving DecidableEq, Repr

-- The buffer of `hs20_build_gas_resp_payload` has room for so many octets.
def payloadMax : ℕ := 1400

abbrev Payload := { o : Octets // o.length ≤ payloadMax }

-- The configuration, and what `hs20_build_gas_resp_payload` makes of it for a request, with what
-- the external server has sent
structure HsConfig where
  gasFragLimit : ℕ := 1400
  gasComebackDelay : UInt16 := 0
  payload : BitVec 32 → Option Remote → Payload

structure HsAp where
  hapd : Hapd Dialogs := {}
  timers : List HsTimer := []
  next : ℕ := 0
  sent : List Sent := []

structure HsAnswers where
  sta : Bool := true
  payload : Bool := true
  copy : Bool := true
  tx : Bool := true
  timer : Bool := true
  deriving DecidableEq, Repr

namespace HsAp

def dialog (s : HsAp) (d : DialogRef) : Option Dialog :=
  (s.hapd.mem d.sta).map fun sta => sta.ext.hs20Dialog d.slot

def setDialog (s : HsAp) (d : DialogRef) (dia : Dialog) : HsAp :=
  { s with
    hapd := s.hapd.modify d.sta fun sta =>
      { sta with ext.hs20Dialog := Function.update sta.ext.hs20Dialog d.slot dia } }

-- `hostapd_drv_send_action`
def sendAction (s : HsAp) (dst : Addr) (msg : GasMsg) (serial : Option ℕ) : HsAp :=
  { s with sent := s.sent ++ [⟨dst, msg, serial⟩] }

end HsAp

-- The slots in the order in which `hs20_dialog_create` looks at them
def slotsFrom (next : Slot) : List Slot := (List.finRange 8).map fun j => next + j

-- The station entry for a dialog; one that is made for it only does not stay long.
def dialogSta (s : HsAp) (addr : Addr) (alloc : Bool) : HsAp × Option StaPtr :=
  match apGetSta s.hapd addr with
  | some sta => (s, some sta)
  | none =>
    match apStaAdd s.hapd addr alloc with
    | (h, none) => ({ s with hapd := h }, none)
    | (h, some sta) =>
      let h := h.modify sta fun e => { e with flags.gas := true }
      ({ s with hapd := apStaSessionTimeout h sta }, some sta)

-- The slot that `hs20_dialog_create` takes
def freeSlot (e : StaInfo Dialogs) : Option Slot :=
  (slotsFrom e.ext.hs20DialogNext).find? fun i => !(e.ext.hs20Dialog i).valid

def hs20DialogCreate (s : HsAp) (addr : Addr) (dialogToken : UInt8) (alloc : Bool) :
    HsAp × Option DialogRef :=
  match dialogSta s addr alloc with
  | (s, none) => (s, none)
  | (s, some sta) =>
    match (s.hapd.mem sta).bind freeSlot with
    | none => (s, none)
    | some i =>
      let h := s.hapd.modify sta fun e =>
        { e with
          ext :=
            { hs20Dialog := Function.update e.ext.hs20Dialog i
                { e.ext.hs20Dialog i with
                  valid := true, dialogToken := dialogToken, serial := s.next }
              hs20DialogNext := i + 1 } }
      ({ s with hapd := h, next := s.next + 1 }, some ⟨sta, i⟩)

def findSlot (e : StaInfo Dialogs) (dialogToken : UInt8) : Option Slot :=
  (List.finRange 8).find? fun i =>
    (e.ext.hs20Dialog i).dialogToken = dialogToken && (e.ext.hs20Dialog i).valid

def hs20DialogFind (s : HsAp) (addr : Addr) (dialogToken : UInt8) : Option DialogRef :=
  (apGetSta s.hapd addr).bind fun sta =>
    ((s.hapd.mem sta).bind fun e => findSlot e dialogToken).map fun i => ⟨sta, i⟩

def hs20DialogClear (s : HsAp) (d : DialogRef) : HsAp := s.setDialog d {}

def hs20ClearCachedIes (s : HsAp) (d : DialogRef) : HsAp := hs20DialogClear s d

-- `struct anqp_query_info`; the parameter of a query for home realms goes to the external server.
structure AnqpQueryInfo where
  request : BitVec 32 := 0
  remoteRequest : BitVec 32 := 0
  remoteDelay : UInt16 := 0
  deriving DecidableEq, Repr

variable (conf : HsConfig)

-- `hs20_req_remote_processing`; `asked` says whether the external server could be asked.
def hs20ReqRemoteProcessing (s : HsAp) (sa : Addr) (dialogToken : UInt8) (qi : AnqpQueryInfo)
    (asked : Bool) (a : HsAnswers) : HsAp :=
  match hs20DialogCreate s sa dialogToken a.sta with
  | (s, none) => s
  | (s, some d) =>
    let dia := (s.dialog d).getD {}
    let dia :=
      { dia with
        requested := qi.remoteRequest, received := 0, allRequested := qi.request }
    if !asked then
      let s := hs20DialogClear s d
      if a.tx then
        s.sendAction sa (.initialResp dialogToken statusAdvSrvUnreachable 0 []) (some dia.serial)
      else s
    else if hs20MinComebackDelay ≤ qi.remoteDelay then
      let s := s.setDialog d { dia with comebackDelay := qi.remoteDelay }
      if a.tx then
        s.sendAction sa
          (.initialResp dialogToken 0 (qi.remoteDelay + hs20ComebackDelayFudge) [])
          (some dia.serial)
      else s
    else s.setDialog d dia

def hs20ReqLocalProcessing (s : HsAp) (sa : Addr) (dialogToken : UInt8) (qi : AnqpQueryInfo)
    (a : HsAnswers) : HsAp :=
  if !a.payload then s
  else
    let buf := (conf.payload qi.request none).1
    if conf.gasFragLimit < buf.length ∨ conf.gasComebackDelay ≠ 0 then
      let comebackDelay := if conf.gasComebackDelay ≠ 0 then conf.gasComebackDelay else 1
      match hs20DialogCreate s sa dialogToken a.sta with
      | (s, none) => s
      | (s, some d) =>
        let dia := (s.dialog d).getD {}
        let s := s.setDialog d { dia with sdResp := some buf, sdRespPos := 0 }
        if a.tx then
          s.sendAction sa (.initialResp dialogToken 0 comebackDelay []) (some dia.serial)
        else s
    else if a.tx then s.sendAction sa (.initialResp dialogToken 0 0 buf) none
    else s

-- The end of `hs20_rx_gas_initial_req`, for a query that could be read
def hs20RxGasInitialReq (s : HsAp) (sa : Addr) (dialogToken : UInt8) (qi : AnqpQueryInfo)
    (asked : Bool) (a : HsAnswers) : HsAp :=
  if qi.remoteRequest ≠ 0 then hs20ReqRemoteProcessing s sa dialogToken qi asked a
  else hs20ReqLocalProcessing conf s sa dialogToken qi a

-- The response of a dialog, which is made of what was received if it does not exist yet
def dialogResp (dia : Dialog) (alloc : Bool) : Option Dialog :=
  match dia.sdResp with
  | some _ => some dia
  | none =>
    if alloc then
      some { dia with
        sdResp := some (conf.payload dia.allRequested (some dia.remote)).1, sdRespPos := 0 }
    else none

def Dialog.rest (dia : Dialog) : Octets := (dia.sdResp.getD []).drop dia.sdRespPos

-- The test of `hs20_tx_gas_response` whether the station has to come back
def txComesBack (dia : Dialog) : Bool :=
  decide (conf.gasFragLimit < dia.rest.length) || decide (dia.comebackDelay ≠ 0) ||
    decide (conf.gasComebackDelay ≠ 0)

-- `hs20_tx_gas_response`, which the code that talks to the external server calls
def hs20TxGasResponse (s : HsAp) (d : DialogRef) (a : HsAnswers) : HsAp :=
  match s.dialog d with
  | none => s
  | some dia₀ =>
    match dialogResp conf dia₀ a.payload with
    | none => hs20ClearCachedIes s d
    | some dia =>
      let dst := (s.hapd.addrOf d.sta).getD 0
      let s := s.setDialog d dia
      if txComesBack conf dia then
        let comebackDelayTus :=
          if conf.gasComebackDelay ≠ 0 then conf.gasComebackDelay
          else dia.comebackDelay + hs20ComebackDelayFudge
        let s :=
          if a.tx then
            s.sendAction dst (.initialResp dia.dialogToken 0 comebackDelayTus [])
              (some dia.serial)
          else s
        let s := if a.timer then { s with timers := ⟨d, dia.serial⟩ :: s.timers } else s
        hs20ClearCachedIes s d
      else if !a.copy || !a.tx then hs20ClearCachedIes s d
      else
        let s := s.setDialog d { dia with sdFragId := dia.sdFragId + 1 }
        hs20ClearCachedIes
          (s.sendAction dst (.initialResp dia.dialogToken 0 0 dia.rest) (some dia.serial)) d

def hs20RxGasComebackReq (s : HsAp) (sa : Addr) (dialogToken : UInt8) (a : HsAnswers) : HsAp :=
  match hs20DialogFind s sa dialogToken with
  | none =>
    -- a group address is no source address
    if sa.getLsbD 40 || !a.tx then s
    else s.sendAction sa (.comebackResp dialogToken statusNoOutstandingGasReq 0 false []) none
  | some d =>
    let dia₀ := (s.dialog d).getD {}
    if dia₀.sdResp = none ∧ dia₀.requested &&& dia₀.received ≠ dia₀.requested then
      let s := hs20DialogClear s d
      if a.tx then
        s.sendAction sa (.comebackResp dialogToken statusGasRespNotReceived 0 false [])
          (some dia₀.serial)
      else s
    else
      match dialogResp conf dia₀ a.payload with
      | none => hs20ClearCachedIes s d
      | some dia =>
        let s := s.setDialog d dia
        let more := decide (conf.gasFragLimit < dia.rest.length)
        let frag := if more then dia.rest.take conf.gasFragLimit else dia.rest
        if !a.copy || !a.tx then hs20ClearCachedIes s d
        else
          let s :=
            if more then
              s.setDialog d { dia with
                sdFragId := dia.sdFragId + 1, sdRespPos := dia.sdRespPos + frag.length }
            else hs20DialogClear s d
          s.sendAction sa (.comebackResp dialogToken 0 dia.sdFragId more frag)
            (some dia.serial)

inductive HsOp where
  | initialReq (sa : Addr) (dialogToken : UInt8) (qi : AnqpQueryInfo) (asked : Bool) (a : HsAnswers)
  | comebackReq (sa : Addr) (dialogToken : UInt8) (a : HsAnswers)
  | remoteAnswer (sa : Addr) (dialogToken : UInt8) (element : BitVec 32) (data : Octets)
  | txGasResponse (sa : Addr) (dialogToken : UInt8) (a : HsAnswers)
  | timer (t : HsTimer)
  | sta (op : StaOp)
  deriving DecidableEq, Repr

-- An element of the response comes in.
def storeAnswer (s : HsAp) (d : DialogRef) (element : BitVec 32) (data : Octets) : HsAp :=
  match s.dialog d with
  | none => s
  | some dia =>
    s.setDialog d { dia with
      remote := dia.remote ++ [(element, data)], received := dia.received ||| element }

def hsExec (s : HsAp) : HsOp → HsAp
  | .initialReq sa dialogToken qi asked a => hs20RxGasInitialReq conf s sa dialogToken qi asked a
  | .comebackReq sa dialogToken a => hs20RxGasComebackReq conf s sa dialogToken a
  | .remoteAnswer sa dialogToken element data =>
    match hs20DialogFind s sa dialogToken with
    | none => s
    | some d => storeAnswer s d element data
  | .txGasResponse sa dialogToken a =>
    match hs20DialogFind s sa dialogToken with
    | none => s
    | some d => hs20TxGasResponse conf s d a
  | .timer t =>
    if t ∈ s.timers then hs20ClearCachedIes { s with timers := s.timers.erase t } t.dialog else s
  | .sta op => { s with hapd := staExec s.hapd op }

end WpaSupplicant.Ap

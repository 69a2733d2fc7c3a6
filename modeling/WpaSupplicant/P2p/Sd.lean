import WpaSupplicant.P2p.Find
import WpaSupplicant.GasFrame

namespace WpaSupplicant.P2p

open GasQuery (getLE16 eidAdvProto accessNetworkQueryProtocol)

-- `ANQP_VENDOR_SPECIFIC`, and `OUI_WFA` with `P2P_OUI_TYPE`
def anqpVendorSpecific : ℕ := 56797
def p2pVendorType : Octets := [0x50, 0x6f, 0x9a, 9]

def queryResponse (ies : Octets) : Option Octets :=
  match ies with
  | eid :: slen :: rest =>
    if eid ≠ eidAdvProto then none
    else if rest.length < slen.toNat ∨ slen.toNat < 2 then none
    else if rest.getD 1 0 ≠ accessNetworkQueryProtocol then none
    else
      let query := rest.drop slen.toNat
      if query.length < 2 then none
      else if query.length - 2 < getLE16 query 0 then none
      else some ((query.drop 2).take (getLE16 query 0))
  | _ => none

-- What follows the ANQP header of a query response: the TLVs behind the Service Update Indicator. A
-- response in one piece holds all that its header announces.
def anqpPayload (whole : Bool) (query : Octets) : Option Octets :=
  let rest := query.drop 4
  let slen := getLE16 query 2
  if query.length < 4 then none
  else if getLE16 query 0 ≠ anqpVendorSpecific then none
  else if (whole ∧ rest.length < slen) ∨ slen < 4 then none
  else if rest.length < 4 then none
  else if rest.take 4 ≠ p2pVendorType then none
  else if rest.length < 6 then none
  else some (rest.drop 6)

structure InitialResp where
  dialogToken : UInt8
  comebackDelay : ℕ
  query : Octets
  deriving DecidableEq, Repr

-- The checks of `p2p_rx_gas_initial_resp` up to the query response
def parseInitialResp (data : Octets) : Option InitialResp :=
  if data.length < 5 + 2 then none
  else if getLE16 data 1 ≠ 0 then none
  else (queryResponse (data.drop 5)).map fun query => ⟨data.getD 0 0, getLE16 data 3, query⟩

structure ComebackResp where
  dialogToken : UInt8
  moreFrags : Bool
  query : Octets
  deriving DecidableEq, Repr

-- The checks of `p2p_rx_gas_comeback_resp` up to the query response, which has data
def parseComebackResp (data : Octets) : Option ComebackResp :=
  if data.length < 6 + 2 then none
  else if getLE16 data 1 ≠ 0 then none
  else
    match queryResponse (data.drop 6) with
    | none => none
    | some query =>
      if query = [] then none
      else some ⟨data.getD 0 0, data.getD 3 0 &&& 0x80 ≠ 0, query⟩

def fragmentPayload (sdRxResp : Option Octets) (query : Octets) : Option Octets :=
  match sdRxResp with
  | some _ => some query
  | none => anqpPayload false query

-- `p2p_send_gas_comeback_req`
def sendGasComebackReq (env : Env) (s : P2pData) (dst : Addr) (dialogToken : UInt8) (freq : ℤ) :
    P2pData :=
  if !env.alloc .gasComebackReq then s
  else
    (sendAction env { s with pendingAction := .noPendingAction } freq dst
      (.gasComebackReq dialogToken)).1

def sdCompleted (env : Env) (s : P2pData) (sa : Addr) : P2pData :=
  let s := s.modifyDevice sa fun d => { d with sdInfo := true, sdSchedule := false }
  let s := { s with
    sdPeer := none
    sdQueries := s.sdQueries.filter fun q => !(s.sdQuery = some q.id && q.peer.isSome)
    sdQuery := none }
  continueFind env s

def sdExpected (s : P2pData) (sa : Addr) : Bool := s.state = .sdDuringFind && s.sdPeer = some sa

-- `p2p_rx_gas_initial_resp`. The timeout is cleared before anything is checked.
def rxGasInitialResp (env : Env) (s : P2pData) (sa : Addr) (data : Octets) (rxFreq : ℤ) : P2pData :=
  if !sdExpected s sa then s
  else
    let s := s.clearTimeout
    match parseInitialResp data with
    | none => s
    | some resp =>
      if resp.comebackDelay ≠ 0 then
        sendGasComebackReq env { s with sdRxResp := none } sa resp.dialogToken rxFreq
      else
        match anqpPayload true resp.query with
        | none => s
        | some _ => sdCompleted env s sa

-- `p2p_rx_gas_comeback_resp`
def rxGasComebackResp (env : Env) (s : P2pData) (sa : Addr) (data : Octets) (rxFreq : ℤ) :
    P2pData :=
  if !sdExpected s sa then s
  else
    let s := s.clearTimeout
    match parseComebackResp data with
    | none => s
    | some resp =>
      match fragmentPayload s.sdRxResp resp.query with
      | none => s
      | some payload =>
        if !env.alloc .sdRxResp then s
        else
          let buf := s.sdRxResp.getD [] ++ payload
          if resp.moreFrags then
            if 64000 < buf.length then { s with sdRxResp := none }
            else
              sendGasComebackReq env { s with sdRxResp := some buf } sa resp.dialogToken rxFreq
          else sdCompleted env { s with sdRxResp := none } sa

-- `p2p_rx_gas_comeback_req`: the next fragment of a response of this device
def rxGasComebackReq (env : Env) (s : P2pData) (sa : Addr) (data : Octets) (rxFreq : ℤ) : P2pData :=
  match data, s.sdResp with
  | dialogToken :: _, some resp =>
    if dialogToken ≠ s.sdRespDialogToken ∨ sa ≠ s.sdRespAddr then s
    else if !env.alloc .gasComebackResp then s
    else
      let fragLen := resp.length - s.sdRespPos
      let more : Bool := 1400 < fragLen
      let s := { s with
        sdRespPos := s.sdRespPos + min fragLen 1400
        sdResp := if more then some resp else none
        pendingAction := .noPendingAction }
      (sendAction env s rxFreq sa (.gasComebackResp dialogToken)).1
  | _, _ => s

-- `p2p_sd_response`
def sdResponse (env : Env) (s : P2pData) (freq : ℤ) (dst : Addr) (dialogToken : UInt8)
    (respTlvs : Octets) : P2pData :=
  let s :=
    if 1400 < respTlvs.length then
      { s with
        sdRespAddr := dst
        sdRespDialogToken := dialogToken
        sdResp := some respTlvs
        sdRespPos := 0 }
    else s
  if !env.alloc .sdResp then s
  else
    (sendAction env { s with pendingAction := .noPendingAction } freq dst
      (.gasInitialResp dialogToken)).1

-- `p2p_sd_cb`
def sdCb (env : Env) (s : P2pData) (success : Bool) : P2pData :=
  let s := { s with pendingAction := .noPendingAction }
  match s.sdPeer with
  | none => continueFind env s
  | some peer =>
    if success then (s.setState .sdDuringFind).setTimeout
    else
      let s := s.modifyDevice peer fun d => { d with sdSchedule := false }
      continueFind env { s with sdPeer := none }

-- `p2p_timeout_sd_during_find`
def timeoutSdDuringFind (env : Env) (s : P2pData) : P2pData :=
  let s := s.modifyPtr s.sdPeer fun d => { d with sdSchedule := false }
  continueFind env { s with sdPeer := none }

-- `p2p_sd_request`, where the allocations succeed; `id` is new.
def sdRequest (s : P2pData) (id : ℕ) (dst : Option Addr) : P2pData :=
  { s with sdQueries := ⟨id, dst⟩ :: s.sdQueries }

-- `p2p_sd_cancel_request`
def sdCancelRequest (s : P2pData) (id : ℕ) : P2pData :=
  { s with
    sdQueries := s.sdQueries.filter (·.id ≠ id)
    sdQuery := if s.sdQuery = some id then none else s.sdQuery }

end WpaSupplicant.P2p

import WpaSupplicant.GasFrame
import WpaSupplicant.Ap.Hs20.Step

namespace WpaSupplicant.GasExchange

open GasQuery Ap

def encode : GasMsg → Octets
  | .initialResp dialogToken status comebackDelay payload =>
    gasAnqpBuildInitialRespBuf dialogToken status comebackDelay payload
  | .comebackResp dialogToken status fragId more payload =>
    gasAnqpBuildComebackRespBuf dialogToken status fragId more 0 payload

-- The exchange that is looked at: the two parties, the token, and the elements that are asked for,
-- none of which comes from the external server
structure Exchange where
  ap : Addr
  sta : Addr
  dialogToken : UInt8
  request : BitVec 32
  deriving DecidableEq, Repr

-- An access point and a station with the frames of the exchange that are under way between them.
-- `results` are the callbacks of the query; `turns` counts the steps of the exchange.
structure Sys (κ : Type) where
  ap : HsAp
  sta : Gas κ
  toAp : List Octets := []
  toSta : List Octets := []
  results : List (Callback κ) := []
  turns : ℕ := 0

variable {κ : Type} (conf : HsConfig) (x : Exchange)

def Exchange.ofAp (o : Ap.Sent) : Bool := o.dst = x.sta && o.msg.dialogToken = x.dialogToken

def Exchange.ofSta : Output → Option Octets
  | .sendAction dst _ frame =>
    if dst = x.ap ∧ frame.getD 2 0 = x.dialogToken then some frame else none
  | .sendActionDone => none

def Exchange.ofCallback (c : Callback κ) : Bool :=
  c.dst = x.ap && c.dialogToken = x.dialogToken

def callback (g : Gas κ) : Op κ → Option (Callback κ)
  | .req .. => none
  | .rx a sa data => (gasQueryRx a g sa data).2.2
  | .timeout q => (gasQueryTimeout g q).2
  | .comebackTimeout a q => (gasQueryTxComebackTimeout a g q).2
  | .cancel dst dialogToken => (gasQueryCancel g dst dialogToken).2

def apStep (s : Sys κ) (op : HsOp) : Sys κ :=
  let ap := hsExec conf s.ap op
  { s with
    ap := ap
    toSta := s.toSta ++
      ((ap.sent.drop s.ap.sent.length).filter x.ofAp).map fun o => encode o.msg }

def staStep (s : Sys κ) (op : Op κ) : Sys κ :=
  let sta := exec s.sta op
  { s with
    sta := sta
    toAp := s.toAp ++ (sta.out.drop s.sta.out.length).filterMap x.ofSta
    results := s.results ++ (callback s.sta op).toList.filter x.ofCallback }

def hostapdRxPublicAction (frame : Octets) : Option HsOp :=
  let action := frame.getD 1 0
  if action = gasInitialReq then
    some (.initialReq x.sta (frame.getD 2 0) { request := x.request } false {})
  else if action = gasComebackReq then some (.comebackReq x.sta (frame.getD 2 0) {})
  else none

-- A frame of the exchange arrives, or the station comes back. The other steps are those of other
-- dialogs.
inductive SysOp (κ : Type) where
  | deliverToAp
  | deliverToSta
  | comeback
  | ap (op : HsOp)
  | sta (op : Op κ)

def sysExec (s : Sys κ) : SysOp κ → Sys κ
  | .deliverToAp =>
    match s.toAp with
    | [] => s
    | frame :: rest =>
      let s := { s with toAp := rest, turns := s.turns + 1 }
      match hostapdRxPublicAction x frame with
      | none => s
      | some op => apStep conf x s op
  | .deliverToSta =>
    match s.toSta with
    | [] => s
    | frame :: rest =>
      let s := { s with toSta := rest, turns := s.turns + 1 }
      staStep x s (.rx {} x.ap (frame.drop 1))
  | .comeback =>
    match gasQueryGetPending s.sta x.ap x.dialogToken with
    | none => s
    | some q =>
      if q.comebackArmed then
        staStep x { s with turns := s.turns + 1 } (.comebackTimeout {} q)
      else s
  | .ap op => apStep conf x s op
  | .sta op => staStep x s op

def apKey : HsOp → Option (Addr × UInt8)
  | .initialReq sa dialogToken _ _ _ => some (sa, dialogToken)
  | .comebackReq sa dialogToken _ => some (sa, dialogToken)
  | .remoteAnswer sa dialogToken _ _ => some (sa, dialogToken)
  | .txGasResponse sa dialogToken _ => some (sa, dialogToken)
  | .timer _ | .sta _ => none

-- The peer and the token of the query that an operation of the client is about
def staKey (g : Gas κ) : Op κ → Option (Addr × UInt8)
  | .req _ dst _ _ _ => (freeDialogToken g dst).map fun token => (dst, token)
  | .rx _ sa data => some (sa, data.getD 1 0)
  | .timeout q => some (q.addr, q.dialogToken)
  | .comebackTimeout _ q => some (q.addr, q.dialogToken)
  | .cancel dst dialogToken => some (dst, dialogToken)

def Elsewhere (s : Sys κ) : SysOp κ → Prop
  | .ap op => apKey op ≠ some (x.sta, x.dialogToken)
  | .sta op => Fires s.sta op ∧ staKey s.sta op ≠ some (x.ap, x.dialogToken)
  | _ => True

-- The response does not go out at once.
def needsDialog : Bool :=
  decide (conf.gasFragLimit < (conf.payload x.request none).1.length) ||
    decide (conf.gasComebackDelay ≠ 0)

def HasRoom (ap : HsAp) (sta : Addr) : Prop :=
  (∃ p e, apGetSta ap.hapd sta = some p ∧ ap.hapd.mem p = some e ∧ freeSlot e ≠ none) ∨
    (apGetSta ap.hapd sta = none ∧ ap.hapd.numSta < ap.hapd.conf.maxNumSta)

-- The access point has room for the dialog when the request arrives, and it keeps the dialog: the
-- station entry stays, and no timer for the slot of the dialog runs out.
def KeepsDialog (s : Sys κ) : SysOp κ → Prop
  | .deliverToAp =>
    (∃ frame ∈ s.toAp, frame.getD 1 0 = gasInitialReq) → needsDialog conf x = true →
      HasRoom s.ap x.sta
  | .ap op => ∀ d, hs20DialogFind s.ap x.sta x.dialogToken = some d →
      (hsExec conf s.ap op).hapd.mem d.sta ≠ none ∧ ∀ t, op = .timer t → t.dialog ≠ d
  | _ => True

def Sys.start (ap : HsAp) (sta : Gas κ) (freq : ℤ) (req : Octets) (cb : κ) : Sys κ :=
  staStep x { ap := ap, sta := sta } (.req {} x.ap freq req cb)

-- Nothing is left to deliver, and the station does not wait to come back.
def Idle (s : Sys κ) : Prop :=
  s.toAp = [] ∧ s.toSta = [] ∧
    ∀ q, gasQueryGetPending s.sta x.ap x.dialogToken = some q → q.comebackArmed = false

def Completed (cb : κ) (s : Sys κ) : Prop :=
  s.results = [{
    cb := cb
    dst := x.ap
    dialogToken := x.dialogToken
    result := .success
    advProto := some advProtoAnqp
    resp := some (conf.payload x.request none).1
    statusCode := statusSuccess }] ∧
    gasQueryGetPending s.sta x.ap x.dialogToken = none ∧
    hs20DialogFind s.ap x.sta x.dialogToken = none

end WpaSupplicant.GasExchange

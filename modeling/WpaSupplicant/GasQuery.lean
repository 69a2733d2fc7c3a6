import WpaSupplicant.Common
import Mathlib.Data.List.Basic

namespace WpaSupplicant.GasQuery

open Lib.Octets

-- `WLAN_PA_GAS_*` and the like
def actionPublic : UInt8 := 4
def gasInitialResp : UInt8 := 11
def gasComebackReq : UInt8 := 12
def gasComebackResp : UInt8 := 13
def eidAdvProto : UInt8 := 108

-- `WLAN_STATUS_SUCCESS`
def statusSuccess : ℕ := 0

-- `enum gas_query_result`
inductive Result where
  | success
  | failure
  | timeout
  | peerError
  | internalError
  | cancelled
  | deletedAtDeinit
  deriving DecidableEq, Repr

-- `struct gas_query_pending`. `serial` numbers the queries ever made and stands for the address
-- of the block, `cb` for the callback with its context; the two timers of a query are kept with
-- it. A block that was freed but is still linked is marked.
structure Query (κ : Type) where
  serial : ℕ
  addr : Addr
  dialogToken : UInt8
  nextFragId : UInt8 := 0
  waitComeback : Bool := false
  offchannelTxStarted : Bool := false
  freq : ℤ
  statusCode : ℕ := 0
  advProto : Option Octets := none
  resp : Option Octets := none
  cb : κ
  timeoutArmed : Bool := false
  comebackArmed : Bool := false
  freed : Bool := false
  deriving DecidableEq, Repr

structure Callback (κ : Type) where
  cb : κ
  dst : Addr
  dialogToken : UInt8
  result : Result
  advProto : Option Octets
  resp : Option Octets
  statusCode : ℕ
  deriving DecidableEq, Repr

inductive Output where
  | sendAction (dst : Addr) (freq : ℤ) (frame : Octets)
  | sendActionDone
  deriving DecidableEq, Repr

-- `struct gas_query`. `issued` and `called` are the history: the queries for which a dialog token
-- was returned, and those whose callback was invoked.
structure Gas (κ : Type) where
  pending : List (Query κ) := []
  next : ℕ := 0
  issued : List ℕ := []
  called : List ℕ := []
  out : List Output := []
  deriving DecidableEq, Repr

structure Answers where
  queryAlloc : Bool := true
  advProtoAlloc : Bool := true
  respAlloc : Bool := true
  reqAlloc : Bool := true
  tx : ℤ := 0
  timer : Bool := true
  deriving DecidableEq, Repr

variable {κ : Type}

namespace Gas

def emit (g : Gas κ) (o : Output) : Gas κ := { g with out := g.out ++ [o] }

def set (g : Gas κ) (q : Query κ) : Gas κ :=
  { g with pending := g.pending.map fun r => if r.serial = q.serial then q else r }

end Gas

-- `gas_query_done`. The callback comes last: what it does to the queries happens after the rest.
def gasQueryDone (g : Gas κ) (q : Query κ) (result : Result) : Gas κ × Option (Callback κ) :=
  let g := if q.offchannelTxStarted then g.emit .sendActionDone else g
  ({ g with
      pending := g.pending.eraseP fun r => r.serial = q.serial
      called := g.called ++ [q.serial] },
    some {
      cb := q.cb
      dst := q.addr
      dialogToken := q.dialogToken
      result := result
      advProto := q.advProto
      resp := q.resp
      statusCode := q.statusCode })

def gasQueryGetPending (g : Gas κ) (addr : Addr) (dialogToken : UInt8) : Option (Query κ) :=
  g.pending.find? fun q => q.addr = addr && q.dialogToken = dialogToken

-- `gas_query_tx`; the query with the frame under way
def gasQueryTx (a : Answers) (g : Gas κ) (q : Query κ) (req : Octets) : Gas κ × Query κ :=
  let g := g.emit (.sendAction q.addr q.freq req)
  let q := if a.tx = 0 then { q with offchannelTxStarted := true } else q
  (g.set q, q)

def gasBuildComebackReq (dialogToken : UInt8) : Octets :=
  [actionPublic, gasComebackReq, dialogToken]

def gasQueryTxComebackReq (a : Answers) (g : Gas κ) (q : Query κ) : Gas κ × Option (Callback κ) :=
  if !a.reqAlloc then gasQueryDone g q .internalError
  else
    let (g, q) := gasQueryTx a g q (gasBuildComebackReq q.dialogToken)
    if a.tx < 0 then gasQueryDone g q .internalError else (g, none)

-- `gas_query_tx_comeback_req_delay`: the timer is armed anew.
def gasQueryTxComebackReqDelay (a : Answers) (g : Gas κ) (q : Query κ) : Gas κ :=
  g.set { q with comebackArmed := a.timer }

structure Response where
  fragId : UInt8
  moreFrags : Bool
  comebackDelay : ℕ
  advProto : Octets
  resp : Octets
  deriving DecidableEq, Repr

def gasQueryRxInitial (a : Answers) (g : Gas κ) (q : Query κ) (r : Response) :
    Gas κ × Option (Callback κ) :=
  if !a.advProtoAlloc then gasQueryDone g q .internalError
  else
    let q := { q with advProto := some r.advProto }
    if r.comebackDelay ≠ 0 then
      (gasQueryTxComebackReqDelay a g { q with waitComeback := true }, none)
    else if !a.respAlloc then gasQueryDone (g.set q) q .internalError
    else
      let q := { q with resp := some (q.resp.getD [] ++ r.resp) }
      gasQueryDone (g.set q) q .success

def gasQueryRxComeback (a : Answers) (g : Gas κ) (q : Query κ) (r : Response) :
    Gas κ × Option (Callback κ) :=
  if q.advProto ≠ some r.advProto then gasQueryDone g q .peerError
  else if r.comebackDelay ≠ 0 then
    if r.fragId ≠ 0 then gasQueryDone g q .peerError
    else (gasQueryTxComebackReqDelay a g q, none)
  else if r.fragId ≠ q.nextFragId then gasQueryDone g q .peerError
  else
    let q := { q with nextFragId := q.nextFragId + 1 }
    if !a.respAlloc then gasQueryDone (g.set q) q .internalError
    else
      let q := { q with resp := some (q.resp.getD [] ++ r.resp) }
      if r.moreFrags then gasQueryTxComebackReq a (g.set q) q
      else gasQueryDone (g.set q) q .success

-- `WPA_GET_LE16`
def getLE16 (data : Octets) (pos : ℕ) : ℕ :=
  (data.getD pos 0).toNat + 256 * (data.getD (pos + 1) 0).toNat

-- The fields of a response from an offset on; `none` where the frame ends too early or has no
-- Advertisement Protocol element
def parseFields (data : Octets) (pos : ℕ) (fragId : UInt8) (moreFrags : Bool) : Option Response :=
  if data.length < pos + 2 then none
  else
    let adv := pos + 2
    let advLen := 2 + (data.getD (adv + 1) 0).toNat
    if data.length < adv + 2 ∨ data.length < adv + advLen then none
    else if data.getD adv 0 ≠ eidAdvProto then none
    else
      let len := adv + advLen
      if data.length < len + 2 then none
      else if data.length < len + 2 + getLE16 data len then none
      else
        some {
          fragId := fragId
          moreFrags := moreFrags
          comebackDelay := getLE16 data pos
          advProto := (data.drop adv).take advLen
          resp := (data.drop (len + 2)).take (getLE16 data len) }

def parseResponse (data : Octets) : Option Response :=
  if data.getD 0 0 = gasComebackResp then
    if data.length < 5 then none
    else parseFields data 5 (data.getD 4 0 &&& 0x7f) ((data.getD 4 0 &&& 0x80) ≠ 0)
  else parseFields data 4 0 false

def gasQueryRx (a : Answers) (g : Gas κ) (sa : Addr) (data : Octets) :
    ℤ × Gas κ × Option (Callback κ) :=
  let action := data.getD 0 0
  if data.length < 4 then (-1, g, none)
  else if action ≠ gasInitialResp ∧ action ≠ gasComebackResp then (-1, g, none)
  else
    match gasQueryGetPending g sa (data.getD 1 0) with
    | none => (-1, g, none)
    | some q =>
      if q.waitComeback ∧ action = gasInitialResp then (0, g, none)
      else if ¬ q.waitComeback ∧ action = gasComebackResp then (0, g, none)
      else
        let q := { q with statusCode := getLE16 data 2 }
        let g := g.set q
        if q.statusCode ≠ statusSuccess then (0, gasQueryDone g q .failure)
        else
          match parseResponse data with
          | none => (0, g, none)
          | some r =>
            if action = gasComebackResp then (0, gasQueryRxComeback a g q r)
            else (0, gasQueryRxInitial a g q r)

def gasQueryDialogTokenAvailable (g : Gas κ) (dst : Addr) (dialogToken : UInt8) : Bool :=
  !g.pending.any fun q => dst = q.addr && dialogToken = q.dialogToken

-- The loop of `gas_query_req` over the dialog tokens
def freeDialogToken (g : Gas κ) (dst : Addr) : Option UInt8 :=
  ((List.range 256).map UInt8.ofNat).find? (gasQueryDialogTokenAvailable g dst)

-- `gas_query_req`. A query whose frame could not be sent is freed but stays in the list.
def gasQueryReq (a : Answers) (g : Gas κ) (dst : Addr) (freq : ℤ) (req : Octets) (cb : κ) :
    ℤ × Gas κ :=
  if req.length < 3 then (-1, g)
  else
    match freeDialogToken g dst with
    | none => (-1, g)
    | some token =>
      if !a.queryAlloc then (-1, g)
      else
        let q : Query κ :=
          { serial := g.next, addr := dst, dialogToken := token, freq := freq, cb := cb }
        let g := { g with pending := q :: g.pending, next := g.next + 1 }
        let (g, q) := gasQueryTx a g q (req.set 2 token)
        if a.tx < 0 then (-1, g.set { q with freed := true })
        else
          (token.toNat,
            { g.set { q with timeoutArmed := a.timer } with issued := g.issued ++ [q.serial] })

-- `gas_query_timeout`, called by the event loop, which has removed the timer
def gasQueryTimeout (g : Gas κ) (q : Query κ) : Gas κ × Option (Callback κ) :=
  gasQueryDone g q .timeout

-- `gas_query_tx_comeback_timeout`, called likewise
def gasQueryTxComebackTimeout (a : Answers) (g : Gas κ) (q : Query κ) :
    Gas κ × Option (Callback κ) :=
  let q := { q with comebackArmed := false }
  gasQueryTxComebackReq a (g.set q) q

def gasQueryCancel (g : Gas κ) (dst : Addr) (dialogToken : UInt8) : Gas κ × Option (Callback κ) :=
  match gasQueryGetPending g dst dialogToken with
  | some q => gasQueryDone g q .cancelled
  | none => (g, none)

-- What happens to the GAS client. A callback that makes or cancels queries does so after
-- everything else in the operation it belongs to, so its calls are operations that follow.
inductive Op (κ : Type) where
  | req (a : Answers) (dst : Addr) (freq : ℤ) (req : Octets) (cb : κ)
  | rx (a : Answers) (sa : Addr) (data : Octets)
  | timeout (q : Query κ)
  | comebackTimeout (a : Answers) (q : Query κ)
  | cancel (dst : Addr) (dialogToken : UInt8)
  deriving DecidableEq, Repr

def exec (g : Gas κ) : Op κ → Gas κ
  | .req a dst freq req cb => (gasQueryReq a g dst freq req cb).2
  | .rx a sa data => (gasQueryRx a g sa data).2.1
  | .timeout q => (gasQueryTimeout g q).1
  | .comebackTimeout a q => (gasQueryTxComebackTimeout a g q).1
  | .cancel dst dialogToken => (gasQueryCancel g dst dialogToken).1

def Fires (g : Gas κ) : Op κ → Prop
  | .timeout q => q ∈ g.pending ∧ q.timeoutArmed = true
  | .comebackTimeout _ q => q ∈ g.pending ∧ q.comebackArmed = true
  | _ => True

-- The states of the client after `gas_query_init`, by operations that meet a condition on the
-- state they find
inductive Reach (ok : Gas κ → Op κ → Prop) : Gas κ → Prop where
  | init : Reach ok {}
  | step {g : Gas κ} (op : Op κ) (hg : Reach ok g) (hfires : Fires g op) (hok : ok g op) :
      Reach ok (exec g op)

end WpaSupplicant.GasQuery

import WpaSupplicant.Common

namespace WpaSupplicant.EapWsc

open Lib.Octets

-- The EAP header of the expanded type: `EAP_TYPE_EXPANDED`, `EAP_VENDOR_WFA` and `EAP_VENDOR_TYPE_WSC`
def eapTypeExpanded : UInt8 := 254
def eapVendorWfa : ℕ := 0x00372a
def eapVendorTypeWsc : ℕ := 1

def eapCodeRequest : UInt8 := 1
def eapCodeResponse : UInt8 := 2

-- `eap_msg_alloc` and the payload: the length field has 16 bits.
def eapMsg (code id : UInt8) (payload : Octets) : Octets :=
  [code, id] ++ toBE 2 (12 + payload.length) ++ [eapTypeExpanded] ++ toBE 3 eapVendorWfa ++
    toBE 4 eapVendorTypeWsc ++ payload

-- `eap_hdr_validate` for this type: the payload
def eapHdrValidate (msg : Octets) : Option Octets :=
  if msg.length < 4 then none
  else
    let len := ofBE ((msg.drop 2).take 2)
    if len < 5 ∨ msg.length < len then none
    else if msg[4]? ≠ some eapTypeExpanded then none
    else if len < 12 then none
    else if ofBE ((msg.drop 5).take 3) ≠ eapVendorWfa ∨
        ofBE ((msg.drop 8).take 4) ≠ eapVendorTypeWsc then none
    else some ((msg.drop 12).take (len - 12))

def eapGetId (msg : Octets) : UInt8 := if msg.length < 4 then 0 else msg[1]?.getD 0

-- `enum wsc_op_code`
def wscStart : UInt8 := 0x01
def wscAck : UInt8 := 0x02
def wscNack : UInt8 := 0x03
def wscMsg : UInt8 := 0x04
def wscDone : UInt8 := 0x05
def wscFragAck : UInt8 := 0x06

-- `WSC_FLAGS_MF` and `WSC_FLAGS_LF`
def flagsMf : UInt8 := 0x01
def flagsLf : UInt8 := 0x02

-- The states of `struct eap_wsc_data`; the first one is WAIT_START for the peer.
inductive State where
  | start
  | mesg
  | fragAck
  | waitFragAck
  | done
  | fail
  deriving DecidableEq, Repr

-- `struct wpabuf`: the allocated size and the octets in it
structure Wpabuf where
  size : ℕ
  used : Octets := []
  deriving DecidableEq, Repr

-- `wpabuf_put_data` and `wpabuf_tailroom`
def Wpabuf.putData (b : Wpabuf) (data : Octets) : Wpabuf := { b with used := b.used ++ data }
def Wpabuf.tailroom (b : Wpabuf) : ℕ := b.size - b.used.length

-- `struct eap_wsc_data`
structure Data where
  state : State
  inBuf : Option Wpabuf := none
  inOpCode : UInt8 := 0
  outBuf : Option Octets := none
  outOpCode : UInt8 := 0
  outUsed : ℕ := 0
  fragmentSize : ℕ
  extRegTimeout : Bool := false
  deriving DecidableEq, Repr

-- `enum wps_process_res`
inductive ProcessRes where
  | done
  | continue
  | failure
  | pending
  deriving DecidableEq, Repr

-- What is called: the buffer of an incoming message, and `wps_process_msg`
inductive Call where
  | alloc (size : ℕ)
  | put (opCode : UInt8) (data : Octets)
  | processMsg (opCode : UInt8) (msg : Octets)
  deriving DecidableEq, Repr

-- What the environment answers: the allocator, `wps_process_msg` and `wps_get_msg`
structure Env where
  allocIn : Bool := true
  allocMsg : Bool := true
  res : ProcessRes := .continue
  next : Option (UInt8 × Octets) := none

-- `eap_wsc_build_frag_ack`
def buildFragAck (env : Env) (code id : UInt8) : Option Octets :=
  if env.allocMsg then some (eapMsg code id [wscFragAck, 0]) else none

def nextFragment (data : Data) (out : Octets) : UInt8 × ℕ :=
  let sendLen := out.length - data.outUsed
  if data.fragmentSize < 2 + sendLen then
    if data.outUsed = 0 then (flagsMf ||| flagsLf, data.fragmentSize - 2 - 2)
    else (flagsMf, data.fragmentSize - 2)
  else (0, sendLen)

def fragmentPayload (data : Data) (out : Octets) : Octets :=
  let f := nextFragment data out
  [data.outOpCode, f.1] ++ (if f.1 &&& flagsLf ≠ 0 then toBE 2 out.length else []) ++
    (out.drop data.outUsed).take f.2

-- The state after a message that is sent completely: the peer ends after its last message.
def sentState (peer : Bool) (data : Data) : State :=
  if peer && ((data.state = .fail && data.outOpCode = wscAck) || data.outOpCode = wscNack ||
      data.outOpCode = wscDone) then .fail
  else .mesg

-- `eap_wsc_build_msg` of the peer and of the server
def buildMsg (peer : Bool) (env : Env) (data : Data) (id : UInt8) : Data × Option Octets :=
  match data.outBuf with
  | none => (data, none)
  | some out =>
    if !env.allocMsg then (data, none)
    else
      let used := data.outUsed + (nextFragment data out).2
      let msg := eapMsg (if peer then eapCodeResponse else eapCodeRequest) id (fragmentPayload data out)
      if used = out.length then
        ({ data with outBuf := none, outUsed := 0, state := sentState peer data }, some msg)
      else ({ data with outUsed := used, state := .waitFragAck }, some msg)

def loadMsg (env : Env) (data : Data) : Option Data :=
  match data.outBuf with
  | some _ => some data
  | none => env.next.map fun m => { data with outBuf := some m.2, outOpCode := m.1, outUsed := 0 }

structure Packet where
  opCode : UInt8
  flags : UInt8
  messageLength : ℕ
  data : Octets
  deriving DecidableEq, Repr

-- The fields at the start of `eap_wsc_process`
def parsePacket (msg : Octets) : Option Packet :=
  match eapHdrValidate msg with
  | some (opCode :: flags :: rest) =>
    if flags &&& flagsLf ≠ 0 then
      if rest.length < 2 then none
      else if ofBE (rest.take 2) < (rest.drop 2).length then none
      else some ⟨opCode, flags, ofBE (rest.take 2), rest.drop 2⟩
    else some ⟨opCode, flags, 0, rest⟩
  | _ => none

-- `eap_wsc_process_cont`: the new data, or whether the server and the peer fail
def processCont (data : Data) (buf : Wpabuf) (p : Packet) : Except Bool (Data × List Call) :=
  if p.opCode ≠ data.inOpCode then .error false
  else if buf.tailroom < p.data.length then .error true
  else .ok ({ data with inBuf := some (buf.putData p.data) }, [.put p.opCode p.data])

def processPending (data : Data) (p : Packet) : Except Bool (Data × List Call) :=
  match data.inBuf with
  | none => .ok (data, [])
  | some buf => processCont data buf p

-- `eap_wsc_process_fragment`
def processFragment (env : Env) (data : Data) (p : Packet) : Option (Data × List Call) :=
  match data.inBuf with
  | some _ => some (data, [])
  | none =>
    if p.flags &&& flagsLf = 0 then none
    else if !env.allocIn then none
    else
      some ({ data with
          inBuf := some ((⟨p.messageLength, []⟩ : Wpabuf).putData p.data)
          inOpCode := p.opCode },
        [.alloc p.messageLength, .put p.opCode p.data])

-- The message that `wps_process_msg` gets
def completeMsg (data : Data) (p : Packet) : Octets :=
  match data.inBuf with
  | none => p.data
  | some buf => buf.used

structure Result where
  data : Data
  ignore : Bool := false
  resp : Option Octets := none
  calls : List Call := []

namespace Peer

-- The end of `eap_wsc_process`: the next message of WPS
def sendMsg (env : Env) (data : Data) (id : UInt8) (calls : List Call) : Result :=
  match loadMsg env data with
  | none => { data := data, calls := calls }
  | some data =>
    let r := buildMsg true env { data with state := .mesg } id
    { data := r.1, resp := r.2, calls := calls }

def processMessage (env : Env) (data : Data) (id : UInt8) (p : Packet) : Result :=
  match processPending data p with
  | .error overflow =>
    { data := if overflow then { data with state := .fail } else data, ignore := true }
  | .ok (data, calls) =>
    if p.flags &&& flagsMf ≠ 0 then
      match processFragment env data p with
      | none => { data := data, ignore := true, calls := calls }
      | some (data, calls') =>
        { data := data, resp := buildFragAck env eapCodeResponse id, calls := calls ++ calls' }
    else
      sendMsg env
        { data with inBuf := none, state := if env.res = .continue then .mesg else .fail } id
        (calls ++ [.processMsg p.opCode (completeMsg data p)])

-- `eap_wsc_process` of the peer
def process (env : Env) (data : Data) (req : Octets) : Result :=
  match parsePacket req with
  | none => { data := data, ignore := true }
  | some p =>
    let id := eapGetId req
    if data.state = .waitFragAck then
      if p.opCode ≠ wscFragAck then { data := data, ignore := true }
      else
        let r := buildMsg true env { data with state := .mesg } id
        { data := r.1, resp := r.2 }
    else if p.opCode ∉ [wscAck, wscNack, wscMsg, wscDone, wscStart] then
      { data := data, ignore := true }
    else if data.state = .start then
      if p.opCode ≠ wscStart then { data := data, ignore := true }
      else sendMsg env { data with state := .mesg } id []
    else if p.opCode = wscStart then { data := data, ignore := true }
    else processMessage env data id p

end Peer

namespace Server

-- The state after `wps_process_msg`
def stateAfter : ProcessRes → State
  | .done => .fail
  | .continue => .mesg
  | .failure => .fail
  | .pending => .mesg

def processMessage (env : Env) (data : Data) (p : Packet) : Data × List Call :=
  match processPending data p with
  | .error _ => ({ data with state := .fail }, [])
  | .ok (data, calls) =>
    if p.flags &&& flagsMf ≠ 0 then
      match processFragment env data p with
      | none => ({ data with state := .fail }, calls)
      | some (data, calls') => ({ data with state := .fragAck }, calls ++ calls')
    else
      ({ data with inBuf := none, state := stateAfter env.res },
        calls ++ [.processMsg p.opCode (completeMsg data p)])

-- `eap_wsc_process` of the server
def process (env : Env) (data : Data) (resp : Octets) : Data × List Call :=
  if data.extRegTimeout then ({ data with state := .fail }, [])
  else
    match parsePacket resp with
    | none => (data, [])
    | some p =>
      if data.state = .waitFragAck then
        if p.opCode ≠ wscFragAck then ({ data with state := .fail }, [])
        else ({ data with state := .mesg }, [])
      else if p.opCode ∉ [wscAck, wscNack, wscMsg, wscDone] then ({ data with state := .fail }, [])
      else processMessage env data p

-- `eap_wsc_buildReq`
def buildReq (env : Env) (data : Data) (id : UInt8) : Data × Option Octets :=
  match data.state with
  | .start => (data, if env.allocMsg then some (eapMsg eapCodeRequest id [wscStart, 0]) else none)
  | .mesg =>
    match loadMsg env data with
    | none => (data, none)
    | some data => buildMsg false env data id
  | .waitFragAck => buildMsg false env data id
  | .fragAck => (data, buildFragAck env eapCodeRequest id)
  | _ => (data, none)

end Server

-- The messages that `wps_process_msg` gets
def handed : List Call → List (UInt8 × Octets)
  | [] => []
  | .processMsg opCode msg :: l => (opCode, msg) :: handed l
  | _ :: l => handed l

-- The messages that the peer hands to WPS while the server sends one: the requests reach the peer, and its
-- responses the server, until there is no more to send.
def toPeer : ℕ → (ℕ → Env) → (ℕ → UInt8) → Data → Data → List (UInt8 × Octets)
  | 0, _, _, _, _ => []
  | fuel + 1, env, ids, server, peer =>
    match Server.buildReq (env 0) server (ids 0) with
    | (_, none) => []
    | (server, some req) =>
      let r := Peer.process (env 0) peer req
      handed r.calls ++
        if server.state = .waitFragAck then
          match r.resp with
          | none => []
          | some resp =>
            toPeer fuel (fun k => env (k + 1)) (fun k => ids (k + 1))
              (Server.process (env 0) server resp).1 r.data
        else []

-- The messages that the server hands to WPS while the peer sends one, whose next fragment is `resp`
def toServer : ℕ → (ℕ → Env) → (ℕ → UInt8) → Data → Data → Octets → List (UInt8 × Octets)
  | 0, _, _, _, _, _ => []
  | fuel + 1, env, ids, server, peer, resp =>
    let r := Server.process (env 0) server resp
    handed r.2 ++
      if peer.state = .waitFragAck then
        match Server.buildReq (env 0) r.1 (ids 0) with
        | (_, none) => []
        | (server, some req) =>
          let q := Peer.process (env 0) peer req
          match q.resp with
          | none => []
          | some resp =>
            toServer fuel (fun k => env (k + 1)) (fun k => ids (k + 1)) server q.data resp
      else []

structure Receiver where
  data : Data
  parts : List Packet := []

def Call.isPut : Call → Bool
  | .put _ _ => true
  | _ => false

def partsAfter (parts : List Packet) (p : Option Packet) (data : Data) (calls : List Call) :
    List Packet :=
  match data.inBuf with
  | none => []
  | some _ => if calls.any Call.isPut then parts ++ p.toList else parts

def Receiver.peerExec (s : Receiver) (op : Env × Octets) : Receiver :=
  let r := Peer.process op.1 s.data op.2
  ⟨r.data, partsAfter s.parts (parsePacket op.2) r.data r.calls⟩

inductive ServerOp where
  | process (env : Env) (resp : Octets)
  | buildReq (env : Env) (id : UInt8)
  | extRegTimeout

def Receiver.serverExec (s : Receiver) : ServerOp → Receiver
  | .process env resp =>
    let r := Server.process env s.data resp
    ⟨r.1, partsAfter s.parts (parsePacket resp) r.1 r.2⟩
  | .buildReq env id => { s with data := (Server.buildReq env s.data id).1 }
  | .extRegTimeout => { s with data := { s.data with extRegTimeout := true } }

end WpaSupplicant.EapWsc

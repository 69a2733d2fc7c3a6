import WpaSupplicant.Common

namespace WpaSupplicant.EapTls

open Lib.Octets

def eapCodeRequest : UInt8 := 1
def eapCodeResponse : UInt8 := 2

-- `EAP_TYPE_*`
def eapTypeTls : UInt8 := 13
def eapTypePeap : UInt8 := 25
def eapTypeExpanded : UInt8 := 254

-- `eap_msg_alloc` for a type of the IETF, and the payload: the length field has 16 bits.
def eapMsg (type code id : UInt8) (payload : Octets) : Octets :=
  [code, id] ++ toBE 2 (5 + payload.length) ++ [type] ++ payload

-- `eap_hdr_validate` for a type of the IETF: the payload
def eapHdrValidate (type : UInt8) (msg : Octets) : Option Octets :=
  if msg.length < 4 then none
  else
    let len := ofBE ((msg.drop 2).take 2)
    if len < 5 ∨ msg.length < len then none
    else if msg[4]? = some eapTypeExpanded then
      if len < 12 then none
      else if ofBE ((msg.drop 5).take 3) ≠ 0 ∨ ofBE ((msg.drop 8).take 4) ≠ type.toNat then none
      else some ((msg.drop 12).take (len - 12))
    else if msg[4]? ≠ some type then none
    else some ((msg.drop 5).take (len - 5))

def eapGetId (msg : Octets) : UInt8 := if msg.length < 4 then 0 else msg[1]?.getD 0

-- `EAP_TLS_FLAGS_*`
def flagsLengthIncluded : UInt8 := 0x80
def flagsMoreFragments : UInt8 := 0x40
def flagsStart : UInt8 := 0x20

-- What the allocator and the TLS library answer: the output and the application data of a handshake, and
-- the state of the connection
structure Env where
  alloc : Bool := true
  errors : Bool := false
  out : Option Octets := none
  appl : Option Octets := none
  established : Bool := false
  failed : Bool := false
  workaround : Bool := true
  deriving DecidableEq, Repr

namespace Peer

-- `struct eap_ssl_data` of the peer
structure Data where
  tlsOut : Option Octets := none
  tlsOutPos : ℕ := 0
  tlsOutLimit : ℕ
  tlsIn : Option Octets := none
  tlsInLeft : ℕ := 0
  tlsInTotal : ℕ := 0
  includeTlsLength : Bool := false
  deriving DecidableEq, Repr

-- `eap_peer_tls_reset_input`
def resetInput (d : Data) : Data := { d with tlsInLeft := 0, tlsInTotal := 0, tlsIn := none }

-- `eap_peer_tls_reset_output`
def resetOutput (d : Data) : Data := { d with tlsOutPos := 0, tlsOut := none }

inductive Reassembly where
  | error
  | needMore
  | done
  deriving DecidableEq, Repr

-- `eap_peer_tls_reassemble_fragment`
def reassembleFragment (env : Env) (d : Data) (inData : Octets) : Data × Reassembly :=
  let tlsIn := d.tlsIn.getD []
  if tlsIn.length + inData.length = 0 then (resetInput d, .error)
  else if 65536 < tlsIn.length + inData.length then (resetInput d, .error)
  else if d.tlsInLeft < inData.length then (resetInput d, .error)
  else if !env.alloc then (resetInput d, .error)
  else
    let d := { d with tlsIn := some (tlsIn ++ inData), tlsInLeft := d.tlsInLeft - inData.length }
    (d, if 0 < d.tlsInLeft then .needMore else .done)

-- `eap_peer_tls_data_reassemble`
def dataReassemble (env : Env) (d : Data) (inData : Octets) : Data × Reassembly :=
  if inData.length < d.tlsInLeft ∨ d.tlsIn.isSome then reassembleFragment env d inData
  else if !env.alloc then ({ d with tlsInLeft := 0, tlsIn := none }, .error)
  else ({ d with tlsInLeft := 0, tlsIn := some inData }, .done)

inductive Res where
  | ok
  | ack
  | appl
  | fail
  deriving DecidableEq, Repr

structure Ret where
  data : Data
  res : Res
  msg : Option Octets := none
  handed : List Octets := []
  deriving DecidableEq, Repr

-- `eap_tls_process_input`
def processInput (env : Env) (d : Data) (inData : Octets) : Ret :=
  let r := dataReassemble env d inData
  match r.2, r.1.tlsIn with
  | .needMore, _ => { data := r.1, res := .ack }
  | .error, _ => { data := r.1, res := .fail }
  | .done, none => { data := r.1, res := .fail }
  | .done, some msg =>
    let d := resetInput { r.1 with tlsOut := env.out }
    if env.appl.isSome && env.established && !env.failed then
      { data := d, res := .appl, msg := env.appl, handed := [msg] }
    else { data := d, res := .ok, handed := [msg] }

-- `eap_tls_process_output`
def processOutput (env : Env) (d : Data) (type version id : UInt8) (ret : Res) : Ret :=
  match d.tlsOut with
  | none => { data := d, res := .fail }
  | some out =>
    let left := out.length - d.tlsOutPos
    let more := decide (d.tlsOutLimit < left)
    let len := if more then d.tlsOutLimit else left
    let lengthIncluded := (decide (d.tlsOutPos = 0) &&
        (decide (d.tlsOutLimit < out.length) || d.includeTlsLength)) ||
      (decide (type = eapTypePeap) && decide (version = 0) && !env.established)
    if !env.alloc then { data := d, res := .fail }
    else
      let flags := version ||| (if more then flagsMoreFragments else 0) |||
        (if lengthIncluded then flagsLengthIncluded else 0)
      let payload := [flags] ++ (if lengthIncluded then toBE 4 out.length else []) ++
        (out.drop d.tlsOutPos).take len
      let d := { d with tlsOutPos := d.tlsOutPos + len }
      { data := if more then d else resetOutput d
        res := ret
        msg := some (eapMsg type eapCodeResponse id payload) }

-- The end of `eap_peer_tls_process_helper`
def sendPending (env : Env) (r : Ret) (type version id : UInt8) : Ret :=
  match r.data.tlsOut with
  | none => { r with data := resetOutput r.data, res := .fail, msg := none }
  | some [] => { r with data := { r.data with tlsOut := none }, res := .ack, msg := none }
  | some _ =>
    let o := processOutput env r.data type version id (if env.failed then .fail else .ok)
    { o with handed := r.handed }

-- `eap_peer_tls_process_helper`
def processHelper (env : Env) (d : Data) (type version id : UInt8) (inData : Octets) : Ret :=
  match d.tlsOut with
  | some (_ :: _) =>
    if 0 < inData.length then { data := d, res := .fail }
    else sendPending env { data := d, res := .ok } type version id
  | _ =>
    let r := processInput env d inData
    if r.res ≠ .ok then r else sendPending env r type version id

-- `eap_peer_tls_build_ack`
def buildAck (env : Env) (type version id : UInt8) : Option Octets :=
  if env.alloc then some (eapMsg type eapCodeResponse id [version]) else none

-- `eap_peer_tls_process_init`: the data, the flags and the payload after them
def processInit (env : Env) (d : Data) (type : UInt8) (req : Octets) : Option (Data × UInt8 × Octets) :=
  if env.errors then none
  else
    match eapHdrValidate type req with
    | none => none
    | some [] => if env.workaround then some (d, 0, []) else none
    | some (flags :: rest) =>
      if flags &&& flagsLengthIncluded ≠ 0 then
        if rest.length < 4 then none
        else
          let len := ofBE (rest.take 4)
          let d := if d.tlsInLeft = 0 then { d with tlsInTotal := len, tlsInLeft := len, tlsIn := none } else d
          some (d, flags, rest.drop 4)
      else some (d, flags, rest)

-- `eap_tls_process`: a request that is ignored has no response.
def process (env : Env) (d : Data) (req : Octets) : Data × Option Octets × List Octets :=
  match processInit env d eapTypeTls req with
  | none => (d, none, [])
  | some (d, flags, payload) =>
    let id := eapGetId req
    let payload := if flags &&& flagsStart ≠ 0 then [] else payload
    let r := processHelper env d eapTypeTls 0 id payload
    match r.res with
    | .fail => (r.data, r.msg.orElse fun _ => buildAck env eapTypeTls 0 id, r.handed)
    | .ack => (r.data, buildAck env eapTypeTls 0 id, r.handed)
    | _ => (r.data, r.msg, r.handed)

end Peer

namespace Server

-- The states of `struct eap_ssl_data`
inductive State where
  | msg
  | fragAck
  | waitFragAck
  deriving DecidableEq, Repr

-- `struct wpabuf`: the allocated size and the octets in it
structure Wpabuf where
  size : ℕ
  used : Octets := []
  deriving DecidableEq, Repr

-- `struct eap_ssl_data` of the server
structure Data where
  tlsOut : Option Octets := none
  tlsOutPos : ℕ := 0
  tlsOutLimit : ℕ
  tlsIn : Option Wpabuf := none
  state : State := .msg
  deriving DecidableEq, Repr

-- `eap_server_tls_build_msg`
def buildMsg (env : Env) (d : Data) (type version id : UInt8) : Data × Option Octets :=
  match d.tlsOut with
  | none => (d, none)
  | some out =>
    let left := out.length - d.tlsOutPos
    let more := decide (d.tlsOutLimit < 1 + left)
    let lengthIncluded := more && decide (d.tlsOutPos = 0)
    let len := if more then if lengthIncluded then d.tlsOutLimit - 1 - 4 else d.tlsOutLimit - 1 else left
    if !env.alloc then (d, none)
    else
      let flags := version ||| (if more then flagsMoreFragments else 0) |||
        (if lengthIncluded then flagsLengthIncluded else 0)
      let payload := [flags] ++ (if lengthIncluded then toBE 4 out.length else []) ++
        (out.drop d.tlsOutPos).take len
      let msg := eapMsg type eapCodeRequest id payload
      if d.tlsOutPos + len = out.length then
        ({ d with tlsOut := none, tlsOutPos := 0, state := .msg }, some msg)
      else ({ d with tlsOutPos := d.tlsOutPos + len, state := .waitFragAck }, some msg)

-- `eap_server_tls_build_ack`
def buildAck (env : Env) (type version id : UInt8) : Option Octets :=
  if env.alloc then some (eapMsg type eapCodeRequest id [version]) else none

-- `eap_server_tls_process_cont`
def processCont (d : Data) (buf : Wpabuf) (data : Octets) : Option Data :=
  if buf.size - buf.used.length < data.length then none
  else some { d with tlsIn := some { buf with used := buf.used ++ data } }

-- `eap_server_tls_process_fragment`
def processFragment (env : Env) (d : Data) (flags : UInt8) (messageLength : ℕ) (data : Octets) : Option Data :=
  if d.tlsIn.isNone && decide (flags &&& flagsLengthIncluded = 0) then none
  else if d.tlsIn.isNone then
    if 65536 < messageLength then none
    else if !env.alloc then none
    else some { d with tlsIn := some ⟨messageLength, data⟩ }
  else some d

inductive Reassembly where
  | error
  | wait
  | done
  deriving DecidableEq, Repr

-- The part of `eap_server_tls_reassemble` after the length
def reassembleData (env : Env) (d : Data) (flags : UInt8) (messageLength : ℕ) (data : Octets) :
    Data × Reassembly :=
  if d.state = .waitFragAck then
    if data ≠ [] then (d, .error) else (d, .wait)
  else
    let cont := match d.tlsIn with
      | none => some d
      | some buf => processCont d buf data
    match cont with
    | none => (d, .error)
    | some d =>
      if flags &&& flagsMoreFragments ≠ 0 then
        match processFragment env d flags messageLength data with
        | none => (d, .error)
        | some d => ({ d with state := .fragAck }, .wait)
      else
        let d := if d.state = .fragAck then { d with state := .msg } else d
        (if d.tlsIn.isNone then { d with tlsIn := some ⟨data.length, data⟩ } else d, .done)

-- `eap_server_tls_reassemble`
def reassemble (env : Env) (d : Data) (flags : UInt8) (data : Octets) : Data × Reassembly :=
  if flags &&& flagsLengthIncluded ≠ 0 then
    if data.length < 4 then (d, .error)
    else reassembleData env d flags (ofBE (data.take 4)) (data.drop 4)
  else reassembleData env d flags 0 data

-- `eap_server_tls_process` with `eap_tls_process_msg`: the data, whether it fails, and what was handed to the
-- TLS library. The client's acknowledgement of the last message is not.
def process (env : Env) (success : Bool) (d : Data) (resp : Octets) : Data × Bool × List Octets :=
  match eapHdrValidate eapTypeTls resp with
  | none | some [] => (d, false, [])
  | some (flags :: rest) =>
    let r := reassemble env d flags rest
    match r.2 with
    | .error => ({ r.1 with tlsIn := none }, true, [])
    | .wait => (r.1, false, [])
    | .done =>
      let msg := (r.1.tlsIn.map Wpabuf.used).getD []
      if success && msg.isEmpty then ({ r.1 with tlsIn := none }, false, [])
      else
        ({ r.1 with tlsIn := none, tlsOut := env.out }, env.out.isNone || env.failed, [msg])

-- `eap_tls_buildReq` after the start
def buildReq (env : Env) (d : Data) (id : UInt8) : Data × Option Octets :=
  if d.state = .fragAck then (d, buildAck env eapTypeTls 0 id) else buildMsg env d eapTypeTls 0 id

end Server

end WpaSupplicant.EapTls

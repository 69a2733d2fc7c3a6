import WpaSupplicant.Common
import WpaSupplicant.Lib.Checked

namespace WpaSupplicant.Radius

open Lib.Octets Lib.Buffer

-- `RADIUS_CODE_*`
def codeAccessRequest : UInt8 := 1
def codeAccessAccept : UInt8 := 2
def codeAccessReject : UInt8 := 3
def codeAccountingRequest : UInt8 := 4
def codeAccountingResponse : UInt8 := 5
def codeAccessChallenge : UInt8 := 11

-- `RADIUS_ATTR_*`
def attrUserName : UInt8 := 1
def attrClass : UInt8 := 25
def attrVendorSpecific : UInt8 := 26
def attrSessionTimeout : UInt8 := 27
def attrTerminationAction : UInt8 := 29
def attrTunnelType : UInt8 := 64
def attrTunnelMediumType : UInt8 := 65
def attrEapMessage : UInt8 := 79
def attrMessageAuthenticator : UInt8 := 80
def attrTunnelPrivateGroupId : UInt8 := 81
def attrAcctInterimInterval : UInt8 := 85

-- The size of `struct radius_hdr`, `RADIUS_MAX_ATTR_LEN` and `MD5_MAC_LEN`
def hdrSize : ℕ := 20
def maxAttrLen : ℕ := 253
def md5MacLen : ℕ := 16

structure Crypto where
  hmacMd5 : Octets → Octets → Octets
  md5 : Octets → Octets
  length_hmacMd5 : ∀ key msg, (hmacMd5 key msg).length = md5MacLen
  length_md5 : ∀ msg, (md5 msg).length = md5MacLen

def zeroCrypto : Crypto where
  hmacMd5 := fun _ _ => List.replicate md5MacLen 0
  md5 := fun _ => List.replicate md5MacLen 0
  length_hmacMd5 := fun _ _ => List.length_replicate ..
  length_md5 := fun _ => List.length_replicate ..

-- `struct radius_msg`: the octets, and where its attributes are
structure Msg where
  buf : Octets
  attrPos : List ℕ := []
  deriving DecidableEq, Repr

structure Attr where
  type : UInt8
  data : Octets
  deriving DecidableEq, Repr

structure Alloc where
  buf : Bool := true
  array : Bool := true
  deriving DecidableEq, Repr

namespace Msg

-- The fields of `struct radius_hdr`
def code (msg : Msg) : UInt8 := msg.buf[0]?.getD 0
def identifier (msg : Msg) : UInt8 := msg.buf[1]?.getD 0
def authenticator (msg : Msg) : Octets := field msg.buf 4 16

def setLength (msg : Msg) : Msg := { msg with buf := patch msg.buf 2 (toBE 2 msg.buf.length) }

def setAuthenticator (msg : Msg) (authenticator : Octets) : Msg :=
  { msg with buf := patch msg.buf 4 authenticator }

-- `radius_get_attr_hdr`, at a position
def attrAt (msg : Msg) (pos : ℕ) : Attr :=
  ⟨msg.buf[pos]?.getD 0, field msg.buf (pos + 2) ((msg.buf[pos + 1]?.getD 0).toNat - 2)⟩

def attrs (msg : Msg) : List Attr := msg.attrPos.map msg.attrAt

-- `radius_msg_new`
def new (code identifier : UInt8) : Msg := { buf := [code, identifier] ++ List.replicate 18 0 }

-- `radius_msg_add_attr`: an attribute that is not in the array remains in the buffer.
def addAttr (alloc : Alloc) (msg : Msg) (type : UInt8) (data : Octets) : Msg × Bool :=
  if maxAttrLen < data.length then (msg, false)
  else if !alloc.buf then (msg, false)
  else
    let buf := msg.buf ++ ([type, UInt8.ofNat (2 + data.length)] ++ data)
    if !alloc.array then ({ msg with buf := buf }, false)
    else (⟨buf, msg.attrPos ++ [msg.buf.length]⟩, true)

-- `radius_msg_add_eap`: the message in attributes of the maximum length
def addEapLoop (alloc : Alloc) : ℕ → Msg → Octets → Msg × Bool
  | 0, msg, data => (msg, data.isEmpty)
  | fuel + 1, msg, data =>
    if data.isEmpty then (msg, true)
    else
      let r := addAttr alloc msg attrEapMessage (data.take maxAttrLen)
      if r.2 then addEapLoop alloc fuel r.1 (data.drop maxAttrLen) else r

def addEap (alloc : Alloc) (msg : Msg) (data : Octets) : Msg × Bool :=
  addEapLoop alloc data.length msg data

-- `radius_msg_finish`: the message, and whether the function returns 0
def finish (c : Crypto) (alloc : Alloc) (msg : Msg) (secret : Option Octets) : Msg × Bool :=
  match secret with
  | none => (msg.setLength, decide (msg.buf.length ≤ 0xffff))
  | some secret =>
    let r := addAttr alloc msg attrMessageAuthenticator (List.replicate md5MacLen 0)
    if !r.2 then r
    else
      let m := r.1.setLength
      ({ m with buf := patch m.buf (msg.buf.length + 2) (c.hmacMd5 secret m.buf) },
        decide (m.buf.length ≤ 0xffff))

def responseAuth (c : Crypto) (msg : Msg) (secret reqAuthenticator : Octets) : Octets :=
  c.md5 (msg.buf.take 4 ++ reqAuthenticator ++ msg.buf.drop hdrSize ++ secret)

-- `radius_msg_finish_srv`
def finishSrv (c : Crypto) (alloc : Alloc) (msg : Msg) (secret reqAuthenticator : Octets) : Msg × Bool :=
  let r := addAttr alloc msg attrMessageAuthenticator (List.replicate md5MacLen 0)
  if !r.2 then r
  else
    let m := r.1.setLength.setAuthenticator reqAuthenticator
    let m := { m with buf := patch m.buf (msg.buf.length + 2) (c.hmacMd5 secret m.buf) }
    (m.setAuthenticator (responseAuth c m secret reqAuthenticator), decide (m.buf.length ≤ 0xffff))

-- `radius_msg_finish_acct`
def finishAcct (c : Crypto) (msg : Msg) (secret : Octets) : Msg :=
  let m := msg.setLength.setAuthenticator (List.replicate md5MacLen 0)
  m.setAuthenticator (c.md5 (m.buf ++ secret))

-- The loop of `radius_msg_parse` over the attributes from a position on
def parseAttrs : ℕ → ℕ → Octets → Option (List ℕ)
  | _, _, [] => some []
  | fuel + 1, pos, type :: len :: rest =>
    if (type :: len :: rest).length < len.toNat ∨ len.toNat < 2 then none
    else
      (parseAttrs fuel (pos + len.toNat) ((type :: len :: rest).drop len.toNat)).map
        fun l => pos :: l
  | _, _, _ => none

-- `radius_msg_parse`
def parse (data : Octets) : Option Msg :=
  if data.length < hdrSize then none
  else
    let msgLen := ofBE (field data 2 2)
    if msgLen < hdrSize ∨ data.length < msgLen then none
    else
      let buf := data.take msgLen
      (parseAttrs buf.length hdrSize (buf.drop hdrSize)).map fun l => ⟨buf, l⟩

-- `radius_msg_get_eap`
def getEap (msg : Msg) : Option Octets :=
  let eap := msg.attrs.flatMap fun a => if a.type = attrEapMessage then a.data else []
  if eap.isEmpty then none else some eap

-- `radius_msg_verify_msg_auth`: whether it accepts the message
def verifyMsgAuth (c : Crypto) (msg : Msg) (secret : Octets) (reqAuth : Option Octets) : Bool :=
  match msg.attrPos.filter fun p => (msg.attrAt p).type = attrMessageAuthenticator with
  | [p] =>
    let zeroed := patch msg.buf (p + 2) (List.replicate md5MacLen 0)
    c.hmacMd5 secret (reqAuth.elim zeroed fun a => patch zeroed 4 a) = field msg.buf (p + 2) md5MacLen
  | _ => false

-- `radius_msg_verify`: the Message-Authenticator is only looked at on demand.
def verify (c : Crypto) (msg : Msg) (secret : Octets) (sent : Msg) (auth : Bool) : Bool :=
  (!auth || verifyMsgAuth c msg secret (some sent.authenticator)) &&
    responseAuth c msg secret sent.authenticator = msg.authenticator

-- `radius_msg_get_attr`, and `radius_msg_get_attr_int32` for values of four octets
def getAttr (msg : Msg) (type : UInt8) : Option Octets :=
  (msg.attrs.find? fun a => a.type = type).map Attr.data

def getAttrInt32 (msg : Msg) (type : UInt8) : Option ℕ :=
  match msg.getAttr type with
  | some data => if data.length = 4 then some (ofBE data) else none
  | none => none

end Msg

end WpaSupplicant.Radius

import WpaSupplicant.Lib.Allocated
import WpaSupplicant.Lib.Reads
import WpaSupplicant.Radius

namespace WpaSupplicant.Radius.Keys

open Lib.Octets Lib.Buffer Lib.Checked Lib.Allocated Lib.Reads

-- The functions of RADIUS messages that look into the attributes, with reads and writes that are checked: one
-- outside the message or a buffer is `none`. Allocations succeed but where a parameter says so.

def vendorIdMicrosoft : ℕ := 311
def vendorIdCisco : ℕ := 9
def vendorAttrMsMppeSendKey : ℕ := 16
def vendorAttrMsMppeRecvKey : ℕ := 17
def ciscoAvPair : ℕ := 1

def tunnelTags : ℕ := 32
def tunnelTypeVlan : ℕ := 13
def tunnelMediumType802 : ℕ := 6

def leapPrefix : Octets := [108, 101, 97, 112, 58, 115, 101, 115, 115, 105, 111, 110, 45, 107, 101, 121, 61]

section Vendor

variable (buf : Octets) (vendor subtype : ℕ)

-- The loop of `radius_msg_get_vendor_attr` in an attribute
def vendorLoop (pos left : ℕ) : Option (Option Octets) :=
  if 2 ≤ left then
    (readBE buf (pos + 1) 1).bind fun vendorLength =>
      if left < vendorLength ∨ vendorLength < 2 then some none
      else
        (readBE buf pos 1).bind fun vendorType =>
          if vendorType ≠ subtype then vendorLoop (pos + vendorLength) (left - vendorLength)
          else (load buf (pos + 2) (vendorLength - 2)).map some
  else some none
termination_by left

-- `radius_msg_get_vendor_attr`, for the attributes at some positions
def getVendorAttr : List ℕ → Option (Option Octets)
  | [] => some none
  | pos :: rest =>
    (readBE buf pos 1).bind fun type =>
      if type ≠ attrVendorSpecific.toNat then getVendorAttr rest
      else
        (readBE buf (pos + 1) 1).bind fun length =>
          if length < 6 then getVendorAttr rest
          else
            (readBE buf (pos + 2) 4).bind fun vendorId =>
              if vendorId ≠ vendor then getVendorAttr rest
              else
                (vendorLoop buf subtype (pos + 6) (length - 6)).bind fun data =>
                  if data.isSome then some data else getVendorAttr rest

end Vendor

section Decrypt

variable (c : Crypto)

def xorOctets (a b : Octets) : Octets := List.zipWith (· ^^^ ·) a b

-- The loop of `decrypt_ms_key`, with the number of octets that are left
def decryptLoop (key reqAuthenticator secret : Octets) (size : ℕ) (first : Bool) (pos left : ℕ) (plain : Octets) :
    Option Octets :=
  if 0 < left then
    (if first then (load key 0 2).map fun salt => secret ++ reqAuthenticator ++ salt
      else (load key (pos - md5MacLen) md5MacLen).map fun prev => secret ++ prev).bind fun input =>
    (load key pos md5MacLen).bind fun block =>
    (put size plain (xorOctets block (c.md5 input))).bind fun plain =>
      decryptLoop key reqAuthenticator secret size false (pos + md5MacLen) (left - md5MacLen) plain
  else some plain
termination_by left
decreasing_by
  rw [md5MacLen]
  omega

def decryptMsKey (key reqAuthenticator secret : Octets) : Option (Option Octets) :=
  if key.length < 2 + 16 then some none
  else if (key.length - 2) % 16 ≠ 0 then some none
  else
    (decryptLoop c key reqAuthenticator secret (key.length - 2) true 2 (key.length - 2) []).bind fun plain =>
    (readBE plain 0 1).bind fun len =>
      if len = 0 ∨ key.length - 2 - 1 < len then some none else (load plain 1 len).map some

-- `struct radius_ms_mppe_keys`
structure MppeKeys where
  send : Option Octets := none
  recv : Option Octets := none
  deriving DecidableEq, Repr

variable (msg : Msg) (sentAuthenticator secret : Octets)

-- A key of `radius_msg_get_ms_keys`
def getMsKey (subtype : ℕ) : Option (Option Octets) :=
  (getVendorAttr msg.buf vendorIdMicrosoft subtype msg.attrPos).bind fun key =>
    match key with
    | none => some none
    | some key => decryptMsKey c key sentAuthenticator secret

-- `radius_msg_get_ms_keys`
def getMsKeys : Option MppeKeys :=
  (getMsKey c msg sentAuthenticator secret vendorAttrMsMppeSendKey).bind fun send =>
    (getMsKey c msg sentAuthenticator secret vendorAttrMsMppeRecvKey).map fun recv => ⟨send, recv⟩

-- `radius_msg_get_cisco_keys`
def getCiscoKeys : Option MppeKeys :=
  (getVendorAttr msg.buf vendorIdCisco ciscoAvPair msg.attrPos).bind fun key =>
    match key with
    | none => some {}
    | some key =>
      if key.length = 51 then
        (load key 0 17).bind fun text =>
          if text = leapPrefix then
            (load key 17 (51 - 17)).bind fun rest =>
              (decryptMsKey c rest sentAuthenticator secret).map fun recv => { recv := recv }
          else some {}
      else some {}

end Decrypt

-- `struct radius_tunnel_attrs`
structure TunnelAttrs where
  tagUsed : ℕ := 0
  type : ℕ := 0
  mediumType : ℕ := 0
  vlanid : ℤ := 0
  deriving DecidableEq, Repr

def tunnelOf (tag : ℕ) : Fin tunnelTags := if h : tag < tunnelTags then ⟨tag, h⟩ else ⟨0, by decide⟩

def isSpace (c : UInt8) : Bool := c = 32 || (9 ≤ c && c ≤ 13)
def isDigit (c : UInt8) : Bool := 48 ≤ c && c ≤ 57

-- `atoi`, of a text that is too short for a number that does not fit
def atoi (text : Octets) : ℤ :=
  let number (l : Octets) : ℕ := (l.takeWhile isDigit).foldl (fun n c => 10 * n + (c.toNat - 48)) 0
  match text.dropWhile isSpace with
  | 45 :: rest => -(number rest : ℤ)
  | 43 :: rest => number rest
  | rest => number rest

-- The text in `buf`, a local array of ten octets
def copyText (data : Octets) : Option ℤ :=
  (store (List.replicate 10 0) 0 data).bind fun text =>
    (store text data.length [0]).map fun text => atoi (text.takeWhile (· ≠ 0))

-- A round of the first loop of `radius_msg_get_vlanid`
def tunnelAttr (buf : Octets) (tunnel : Fin tunnelTags → TunnelAttrs) (pos : ℕ) :
    Option (Fin tunnelTags → TunnelAttrs) :=
  (readBE buf (pos + 1) 1).bind fun length =>
    if length < 3 then some tunnel
    else
      (readBE buf (pos + 2) 1).bind fun tag =>
      (readBE buf pos 1).bind fun type =>
        let i := tunnelOf tag
        let tun := { tunnel i with tagUsed := (tunnel i).tagUsed + 1 }
        if type = attrTunnelType.toNat then
          if length ≠ 6 then some tunnel
          else (readBE buf (pos + 3) 3).map fun v => Function.update tunnel i { tun with type := v }
        else if type = attrTunnelMediumType.toNat then
          if length ≠ 6 then some tunnel
          else (readBE buf (pos + 3) 3).map fun v => Function.update tunnel i { tun with mediumType := v }
        else if type = attrTunnelPrivateGroupId.toNat then
          let skip := if tag < tunnelTags then 1 else 0
          let dlen := length - 2 - skip
          if 10 ≤ dlen then some tunnel
          else
            (load buf (pos + 2 + skip) dlen).bind fun data =>
              (copyText data).map fun v => Function.update tunnel i { tun with vlanid := v }
        else some tunnel

-- `radius_msg_get_vlanid`
def getVlanid (msg : Msg) : Option ℤ :=
  (msg.attrPos.foldlM (tunnelAttr msg.buf) fun _ => {}).map fun tunnel =>
    (((List.finRange tunnelTags).map tunnel).find? fun tun =>
      tun.tagUsed ≠ 0 && tun.type = tunnelTypeVlan && tun.mediumType = tunnelMediumType802 &&
        decide (0 < tun.vlanid)).elim (-1) TunnelAttrs.vlanid

section Encrypt

variable (c : Crypto)

-- The padded length of `encrypt_ms_key`, an `int` of which the mask keeps one octet
def padLen (keyLen : ℕ) : ℤ :=
  if (1 + keyLen) % 16 ≠ 0 then ((1 + keyLen) % 256 / 16 * 16 + 16 : ℕ) else Int.bmod (1 + keyLen : ℕ) (2 ^ 32)

-- The loop of `encrypt_ms_key`, over the octets of `buf` from a position on
def encryptLoop (salt reqAuthenticator secret : Octets) (first : Bool) (pos len : ℕ) (buf : Octets) : Option Octets :=
  if 0 < len then
    (if first then some (secret ++ reqAuthenticator ++ salt)
      else (load buf (pos - md5MacLen) md5MacLen).map fun prev => secret ++ prev).bind fun input =>
    (load buf pos md5MacLen).bind fun block =>
    (store buf pos (xorOctets block (c.md5 input))).bind fun buf =>
      encryptLoop salt reqAuthenticator secret false (pos + md5MacLen) (len - md5MacLen) buf
  else some buf
termination_by len
decreasing_by
  rw [md5MacLen]
  omega

-- `encrypt_ms_key`, which writes from a position of `buf` on. A negative length is a huge one for `os_memset`.
def encryptMsKey (key salt reqAuthenticator secret buf : Octets) (pos : ℕ) : Option (Octets × ℕ) :=
  if padLen key.length < 0 then none
  else
    let len := (padLen key.length).toNat
    (store buf pos (List.replicate len 0)).bind fun buf =>
    (store buf pos [UInt8.ofNat key.length]).bind fun buf =>
    (store buf (pos + 1) key).bind fun buf =>
    (encryptLoop c salt reqAuthenticator secret true pos len buf).map fun buf => (buf, len)

-- A half of `radius_msg_add_mppe_keys`: the data of the attribute, built in a buffer of an allocated size
def mppeAttr (vendorType : ℕ) (key reqAuthenticator secret : Octets) (salt : ℕ) (size : ℕ) : Option Octets :=
  (store (List.replicate size 0) 0 (toBE 4 vendorIdMicrosoft)).bind fun buf =>
  (store buf 4 [UInt8.ofNat vendorType]).bind fun buf =>
  (store buf 6 (toBE 2 salt)).bind fun buf =>
  (encryptMsKey c key (toBE 2 salt) reqAuthenticator secret buf 8).bind fun r =>
  (store r.1 5 [UInt8.ofNat (4 + r.2)]).bind fun buf => load buf 0 (8 + r.2)

structure Env where
  sendBuf : Bool := true
  sendAttr : Alloc := {}
  recvBuf : Bool := true
  recvAttr : Alloc := {}
  random : ℕ := 0
  deriving DecidableEq, Repr

-- `radius_msg_add_mppe_keys`: the message, and whether the function returns 1. Both buffers have the size for the
-- send key.
def addMppeKeys (env : Env) (msg : Msg) (reqAuthenticator secret sendKey recvKey : Octets) : Option (Msg × Bool) :=
  let salt := env.random % 2 ^ 16 ||| 0x8000
  let size := 8 + sendKey.length + 16
  if !env.sendBuf then some (msg, false)
  else
    (mppeAttr c vendorAttrMsMppeSendKey sendKey reqAuthenticator secret salt size).bind fun data =>
      let r := msg.addAttr env.sendAttr attrVendorSpecific data
      if !r.2 then some r
      else if !env.recvBuf then some (r.1, false)
      else
        (mppeAttr c vendorAttrMsMppeRecvKey recvKey reqAuthenticator secret (salt ^^^ 1) size).map fun data =>
          r.1.addAttr env.recvAttr attrVendorSpecific data

end Encrypt

end WpaSupplicant.Radius.Keys

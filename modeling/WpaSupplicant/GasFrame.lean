import WpaSupplicant.GasQuery

namespace WpaSupplicant.GasQuery

-- `WLAN_PA_GAS_INITIAL_REQ` and `ACCESS_NETWORK_QUERY_PROTOCOL`
def gasInitialReq : UInt8 := 10
def accessNetworkQueryProtocol : UInt8 := 0

-- `WPA_PUT_LE16`
def putLE16 (n : ℕ) : Octets := [UInt8.ofNat n, UInt8.ofNat (n / 256)]

def gasBuildResp (action dialogToken : UInt8) (statusCode : UInt16) (fragId : UInt8) (more : Bool)
    (comebackDelay : UInt16) : Octets :=
  [actionPublic, action, dialogToken] ++ putLE16 statusCode.toNat ++
    (if action = gasComebackResp then [fragId ||| (if more then 0x80 else 0)] else []) ++
    putLE16 comebackDelay.toNat

def gasAddAdvProtoAnqp (queryRespLenLimit : UInt8) (pameBi : Bool) : Octets :=
  [eidAdvProto, 2, (queryRespLenLimit &&& 0x7f) ||| (if pameBi then 0x80 else 0),
    accessNetworkQueryProtocol]

def lenOffset (action : UInt8) : Option ℕ :=
  if action = gasInitialReq then some (3 + 4)
  else if action = gasInitialResp then some (7 + 4)
  else if action = gasComebackResp then some (8 + 4)
  else none

def gasAnqpSetLen (buf : Octets) : Octets :=
  if buf.length < 2 then buf
  else
    match lenOffset (buf.getD 1 0) with
    | none => buf
    | some offset =>
      if buf.length < offset + 2 then buf
      else
        let len := buf.length - offset - 2
        (buf.set offset (UInt8.ofNat len)).set (offset + 1) (UInt8.ofNat (len / 256))

def gasAnqpBuildInitialRespBuf (dialogToken : UInt8) (statusCode comebackDelay : UInt16)
    (payload : Octets) : Octets :=
  gasAnqpSetLen (gasBuildResp gasInitialResp dialogToken statusCode 0 false comebackDelay ++
    gasAddAdvProtoAnqp 0x7f false ++ [0, 0] ++ payload)

def gasAnqpBuildComebackRespBuf (dialogToken : UInt8) (statusCode : UInt16) (fragId : UInt8)
    (more : Bool) (comebackDelay : UInt16) (payload : Octets) : Octets :=
  gasAnqpSetLen (gasBuildResp gasComebackResp dialogToken statusCode fragId more comebackDelay ++
    gasAddAdvProtoAnqp 0x7f false ++ [0, 0] ++ payload)

section RoundTrip

variable {dialogToken fragId : UInt8} {statusCode comebackDelay : UInt16} {more : Bool}
  {payload : Octets}

def advProtoAnqp : Octets := [eidAdvProto, 2, 0x7f, accessNetworkQueryProtocol]

theorem le16_octets (n : ℕ) (hn : n < 65536) :
    (UInt8.ofNat n).toNat + 256 * (UInt8.ofNat (n / 256)).toNat = n := by
  simp only [UInt8.toNat_ofNat']
  omega

-- The length is written where the room for it is left.
theorem gasAnqpSetLen_eq {head : Octets} (offset : ℕ) (payload : Octets)
    (hoffset : lenOffset (head.getD 1 0) = some offset) (hhead : head.length = offset)
    (htwo : 2 ≤ offset) :
    gasAnqpSetLen (head ++ [0, 0] ++ payload) = head ++ putLE16 payload.length ++ payload := by
  have hget : (head ++ [0, 0] ++ payload).getD 1 0 = head.getD 1 0 := by
    rw [List.append_assoc, List.getD_eq_getElem?_getD, List.getElem?_append_left (by omega),
      List.getD_eq_getElem?_getD]
  have hlen : (head ++ [0, 0] ++ payload).length = offset + 2 + payload.length := by
    rw [List.length_append, List.length_append, hhead]
    rfl
  have hrest : offset + 2 + payload.length - offset - 2 = payload.length := by omega
  rw [gasAnqpSetLen, if_neg (by omega), hget, hoffset]
  dsimp only
  rw [if_neg (by omega), hlen, hrest, List.append_assoc, List.set_append_right _ _ (by omega),
    List.set_append_right _ _ (by omega), hhead, Nat.sub_self, Nat.add_sub_cancel_left]
  simp [putLE16]

theorem gasAnqpBuildInitialRespBuf_eq :
    gasAnqpBuildInitialRespBuf dialogToken statusCode comebackDelay payload =
      [actionPublic, gasInitialResp, dialogToken] ++ putLE16 statusCode.toNat ++
        putLE16 comebackDelay.toNat ++ advProtoAnqp ++ putLE16 payload.length ++ payload := by
  rw [gasAnqpBuildInitialRespBuf, gasAnqpSetLen_eq 11 payload rfl rfl (by omega)]
  rfl

theorem gasAnqpBuildComebackRespBuf_eq :
    gasAnqpBuildComebackRespBuf dialogToken statusCode fragId more comebackDelay payload =
      [actionPublic, gasComebackResp, dialogToken] ++ putLE16 statusCode.toNat ++
        [fragId ||| (if more then 0x80 else 0)] ++ putLE16 comebackDelay.toNat ++ advProtoAnqp ++
        putLE16 payload.length ++ payload := by
  rw [gasAnqpBuildComebackRespBuf, gasAnqpSetLen_eq 12 payload rfl rfl (by omega)]
  rfl

theorem parseResponse_initialResp (dialogToken : UInt8) (statusCode comebackDelay : UInt16)
    (hpayload : payload.length < 65536) :
    parseResponse ((gasAnqpBuildInitialRespBuf dialogToken statusCode comebackDelay payload).drop 1) =
      some ⟨0, false, comebackDelay.toNat, advProtoAnqp, payload⟩ := by
  have hdelay := le16_octets comebackDelay.toNat comebackDelay.toNat_lt
  have hlen := le16_octets payload.length hpayload
  rw [gasAnqpBuildInitialRespBuf_eq]
  simp [parseResponse, parseFields, putLE16, advProtoAnqp, gasInitialResp, gasComebackResp,
    getLE16, eidAdvProto] at hdelay hlen ⊢
  rw [hlen]
  exact ⟨by omega, hdelay, by simp⟩

-- A fragment has a number of seven bits, and the flag above it.
theorem fragId_octet (hfrag : fragId.toNat < 128) (more : Bool) :
    ((fragId ||| (if more then 0x80 else 0)) &&& 0x7f) = fragId ∧
      (((fragId ||| (if more then 0x80 else 0)) &&& 0x80) ≠ 0 ↔ more = true) := by
  have hall : ∀ n < 128, ∀ b : Bool,
      ((UInt8.ofNat n ||| (if b then 0x80 else 0)) &&& 0x7f) = UInt8.ofNat n ∧
        (((UInt8.ofNat n ||| (if b then 0x80 else 0)) &&& 0x80) ≠ 0 ↔ b = true) := by
    decide
  have hof : UInt8.ofNat fragId.toNat = fragId := UInt8.ofNat_toNat
  have hcase := hall fragId.toNat hfrag more
  rwa [hof] at hcase

theorem parseResponse_comebackResp (dialogToken : UInt8) (statusCode comebackDelay : UInt16)
    (more : Bool) (hpayload : payload.length < 65536) (hfrag : fragId.toNat < 128) :
    parseResponse ((gasAnqpBuildComebackRespBuf dialogToken statusCode fragId more comebackDelay
        payload).drop 1) =
      some ⟨fragId, more, comebackDelay.toNat, advProtoAnqp, payload⟩ := by
  have hdelay := le16_octets comebackDelay.toNat comebackDelay.toNat_lt
  have hlen := le16_octets payload.length hpayload
  obtain ⟨hid, hmore⟩ := fragId_octet hfrag more
  rw [gasAnqpBuildComebackRespBuf_eq]
  simp [parseResponse, parseFields, putLE16, advProtoAnqp, gasComebackResp, getLE16,
    eidAdvProto] at hdelay hlen hid hmore ⊢
  rw [hlen]
  refine ⟨by omega, hid, ?_, hdelay, by simp⟩
  by_cases hm : more = true
  · simpa [hm] using hmore.mpr hm
  · simpa [hm] using fun hne => hm (hmore.mp hne)

theorem initialResp_head (dialogToken : UInt8) (statusCode comebackDelay : UInt16)
    (payload : Octets) :
    let data := (gasAnqpBuildInitialRespBuf dialogToken statusCode comebackDelay payload).drop 1
    4 ≤ data.length ∧ data.getD 0 0 = gasInitialResp ∧ data.getD 1 0 = dialogToken ∧
      getLE16 data 2 = statusCode.toNat := by
  have hstatus := le16_octets statusCode.toNat statusCode.toNat_lt
  rw [gasAnqpBuildInitialRespBuf_eq]
  simp [putLE16, advProtoAnqp, getLE16] at hstatus ⊢
  exact hstatus

theorem comebackResp_head (dialogToken : UInt8) (statusCode : UInt16) (fragId : UInt8) (more : Bool)
    (comebackDelay : UInt16) (payload : Octets) :
    let data := (gasAnqpBuildComebackRespBuf dialogToken statusCode fragId more comebackDelay
      payload).drop 1
    4 ≤ data.length ∧ data.getD 0 0 = gasComebackResp ∧ data.getD 1 0 = dialogToken ∧
      getLE16 data 2 = statusCode.toNat := by
  have hstatus := le16_octets statusCode.toNat statusCode.toNat_lt
  rw [gasAnqpBuildComebackRespBuf_eq]
  simp [putLE16, advProtoAnqp, getLE16] at hstatus ⊢
  exact hstatus

end RoundTrip

end WpaSupplicant.GasQuery

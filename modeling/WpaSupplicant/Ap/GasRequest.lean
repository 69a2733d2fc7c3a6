import Mathlib.Tactic.Common
import WpaSupplicant.Ap.Hs20
import WpaSupplicant.GasFrame

namespace WpaSupplicant.Ap.GasRequest

open GasQuery

-- A GAS request from the management frame to the request mask. The parsers have offsets into the
-- whole frame for their pointers. A result of `none` is a read outside the frame, or a length that
-- would be below zero.

-- `WLAN_ACTION_*`
def actionSaQuery : UInt8 := 8
def actionHt : UInt8 := 7
def actionWmm : UInt8 := 17
def actionVendorSpecific : UInt8 := 127

-- `ANQP_QUERY_LIST` and `ANQP_VENDOR_SPECIFIC`
def anqpQueryList : ℕ := 256
def anqpVendorSpecific : ℕ := 56797

-- `OUI_WFA` and `HS20_ANQP_OUI_TYPE`
def ouiWfa : ℕ := 0x506f9a
def hs20AnqpOuiType : UInt8 := 17

-- `HS20_STYPE_QUERY_LIST` and `HS20_STYPE_NAI_HOME_REALM_QUERY`
def hs20StypeQueryList : UInt8 := 1
def hs20StypeNaiHomeRealmQuery : UInt8 := 6

-- `WLAN_STATUS_GAS_ADV_PROTO_NOT_SUPPORTED`
def statusGasAdvProtoNotSupported : UInt16 := 59

inductive Req where
  | capabilityList | venueName | networkAuthType | roamingConsortium | ipAddrTypeAvailability
  | naiRealm | cellularNetwork | domainName
  | hsCapabilityList | operatorFriendlyName | wanMetrics | connectionCapability | naiHomeRealm
  deriving DecidableEq, Repr

-- The shifts in `ANQP_REQ_*`: an info id less `ANQP_QUERY_LIST`, or a subtype behind 0x10000
def Req.position : Req → ℕ
  | .capabilityList => 257 - 256
  | .venueName => 258 - 256
  | .networkAuthType => 260 - 256
  | .roamingConsortium => 261 - 256
  | .ipAddrTypeAvailability => 262 - 256
  | .naiRealm => 263 - 256
  | .cellularNetwork => 264 - 256
  | .domainName => 268 - 256
  | .hsCapabilityList => 16 + 2
  | .operatorFriendlyName => 16 + 3
  | .wanMetrics => 16 + 4
  | .connectionCapability => 16 + 5
  | .naiHomeRealm => 16 + 6

def Req.bit (r : Req) : BitVec 32 := BitVec.twoPow 32 r.position

-- What `hapd` and its configuration tell about each request. A text or a list is there or not.
structure AnqpConf where
  hs20VenueName : Bool := false
  venueName : Bool := false
  hs20NetworkAuthType : Bool := false
  roamingConsortium : Bool := false
  hs20IpaddrTypeConfigured : Bool := false
  hs20NaiRealmList : Bool := false
  hs203gppCellularNetwork : Bool := false
  hs20DomainNameListValue : Bool := false
  hs20OperatorFriendlyName : Bool := false
  hs20WanMetrics : Bool := false
  hs20ConnectionCapability : Bool := false
  anqpTypeMask : BitVec 32 := 0
  venueNameDelay : UInt16 := 0
  networkAuthTypeDelay : UInt16 := 0
  roamingConsortiumListDelay : UInt16 := 0
  ipaddrTypeDelay : UInt16 := 0
  naiRealmListDelay : UInt16 := 0
  cellularNetworkDelay : UInt16 := 0
  domainNameListDelay : UInt16 := 0
  operatorFriendlyNameDelay : UInt16 := 0
  wanMetricsDelay : UInt16 := 0
  connectionCapabilityDelay : UInt16 := 0
  naiHomeRealmDelay : UInt16 := 0
  deriving DecidableEq, Repr

-- `struct anqp_query_info`, with the parameter for the external server
structure QueryInfo extends AnqpQueryInfo where
  param : Option ℕ := none
  paramArg : ℕ := 0
  deriving DecidableEq, Repr

def setAnqpReq (bit : BitVec 32) (isLocal : Bool) (remote : BitVec 32) (remoteDelay : UInt16)
    (qi : QueryInfo) : QueryInfo :=
  let qi := { qi with request := qi.request ||| bit }
  if isLocal then qi
  else if bit &&& remote ≠ 0 then
    { qi with
      remoteRequest := qi.remoteRequest ||| bit
      remoteDelay := if qi.remoteDelay < remoteDelay then remoteDelay else qi.remoteDelay }
  else qi

variable (hapd : AnqpConf)

def rxAnqpQueryListId (infoId : ℕ) (qi : QueryInfo) : QueryInfo :=
  match infoId with
  | 257 => setAnqpReq Req.capabilityList.bit true 0 0 qi
  | 258 =>
    setAnqpReq Req.venueName.bit (hapd.hs20VenueName || hapd.venueName) hapd.anqpTypeMask hapd.venueNameDelay qi
  | 260 =>
    setAnqpReq Req.networkAuthType.bit hapd.hs20NetworkAuthType hapd.anqpTypeMask hapd.networkAuthTypeDelay qi
  | 261 =>
    setAnqpReq Req.roamingConsortium.bit
      (hapd.roamingConsortium && decide (hapd.anqpTypeMask &&& Req.roamingConsortium.bit = 0))
      hapd.anqpTypeMask hapd.roamingConsortiumListDelay qi
  | 262 =>
    setAnqpReq Req.ipAddrTypeAvailability.bit hapd.hs20IpaddrTypeConfigured hapd.anqpTypeMask
      hapd.ipaddrTypeDelay qi
  | 263 => setAnqpReq Req.naiRealm.bit hapd.hs20NaiRealmList hapd.anqpTypeMask hapd.naiRealmListDelay qi
  | 264 =>
    setAnqpReq Req.cellularNetwork.bit hapd.hs203gppCellularNetwork hapd.anqpTypeMask
      hapd.cellularNetworkDelay qi
  | 268 =>
    setAnqpReq Req.domainName.bit hapd.hs20DomainNameListValue hapd.anqpTypeMask hapd.domainNameListDelay qi
  | _ => qi

def rxAnqpHsQueryList (subtype : ℕ) (qi : QueryInfo) : QueryInfo :=
  match subtype with
  | 2 => setAnqpReq Req.hsCapabilityList.bit true 0 0 qi
  | 3 =>
    setAnqpReq Req.operatorFriendlyName.bit hapd.hs20OperatorFriendlyName hapd.anqpTypeMask
      hapd.operatorFriendlyNameDelay qi
  | 4 => setAnqpReq Req.wanMetrics.bit hapd.hs20WanMetrics hapd.anqpTypeMask hapd.wanMetricsDelay qi
  | 5 =>
    setAnqpReq Req.connectionCapability.bit hapd.hs20ConnectionCapability hapd.anqpTypeMask
      hapd.connectionCapabilityDelay qi
  | _ => qi

def difference (a b : ℕ) : Option ℕ := if b ≤ a then some (a - b) else none

-- `rx_anqp_hs_nai_home_realm`, without `HS20_TE_STATIC_CONF`
def rxAnqpHsNaiHomeRealm (pos fin : ℕ) (qi : QueryInfo) : Option QueryInfo :=
  (difference fin pos).map fun arg =>
    let qi := { qi with request := qi.request ||| Req.naiHomeRealm.bit, param := some pos, paramArg := arg }
    if hapd.anqpTypeMask &&& Req.naiHomeRealm.bit ≠ 0 then
      { qi with
        remoteRequest := qi.remoteRequest ||| Req.naiHomeRealm.bit
        remoteDelay := if qi.remoteDelay < hapd.naiHomeRealmDelay then hapd.naiHomeRealmDelay else qi.remoteDelay }
    else qi

variable (frame : Octets)

-- `WPA_GET_LE16` and `WPA_GET_BE24`
def le16At (pos : ℕ) : Option ℕ :=
  frame[pos]?.bind fun x => frame[pos + 1]?.map fun y => x.toNat + 256 * y.toNat

def be24At (pos : ℕ) : Option ℕ :=
  frame[pos]?.bind fun x => frame[pos + 1]?.bind fun y => frame[pos + 2]?.map fun z =>
    65536 * x.toNat + 256 * y.toNat + z.toNat

def rxAnqpQueryList (pos fin : ℕ) (qi : QueryInfo) : Option QueryInfo :=
  if pos + 2 ≤ fin then
    (le16At frame pos).bind fun infoId => rxAnqpQueryList (pos + 2) fin (rxAnqpQueryListId hapd infoId qi)
  else some qi
termination_by fin - pos

-- The loop of `rx_anqp_vendor_specific` over the subtypes
def rxSubtypes (pos fin : ℕ) (qi : QueryInfo) : Option QueryInfo :=
  if pos < fin then
    frame[pos]?.bind fun subtype => rxSubtypes (pos + 1) fin (rxAnqpHsQueryList hapd subtype.toNat qi)
  else some qi
termination_by fin - pos

def rxAnqpVendorSpecific (pos fin : ℕ) (qi : QueryInfo) : Option QueryInfo :=
  if fin < pos + 4 then some qi
  else
    (be24At frame pos).bind fun oui =>
      if oui ≠ ouiWfa then some qi
      else
        frame[pos + 3]?.bind fun type =>
          if type ≠ hs20AnqpOuiType then some qi
          else if pos + 4 = fin then some qi
          else
            frame[pos + 4]?.bind fun subtype =>
              if subtype = hs20StypeQueryList then rxSubtypes hapd frame (pos + 5) fin qi
              else if subtype = hs20StypeNaiHomeRealmQuery then rxAnqpHsNaiHomeRealm hapd (pos + 5) fin qi
              else some qi

-- The `switch` over the info id of an element
def rxElement (infoId pos fin : ℕ) (qi : QueryInfo) : Option QueryInfo :=
  if infoId = anqpQueryList then rxAnqpQueryList hapd frame pos fin qi
  else if infoId = anqpVendorSpecific then rxAnqpVendorSpecific hapd frame pos fin qi
  else some qi

-- The loop of `hs20_rx_gas_initial_req`, and whether it came to the end of the query
def rxElements (pos fin : ℕ) (qi : QueryInfo) : Option (QueryInfo × Bool) :=
  if pos < fin then
    if fin < pos + 4 then some (qi, false)
    else
      (le16At frame pos).bind fun infoId =>
        (le16At frame (pos + 2)).bind fun elen =>
          if fin < pos + 4 + elen then some (qi, false)
          else
            (rxElement hapd frame infoId (pos + 4) (pos + 4 + elen) qi).bind fun qi =>
              rxElements (pos + 4 + elen) fin qi
  else some (qi, true)
termination_by fin - pos

-- What follows: nothing, a response that refuses the protocol, `hs20_req_remote_processing` or
-- `hs20_req_local_processing`, or a comeback request
inductive RxAct where
  | ignored
  | unsupported (reply : Octets)
  | processed (dialogToken : UInt8)
  | comeback (dialogToken : UInt8)
  deriving DecidableEq, Repr

structure Outcome where
  qi : QueryInfo := {}
  act : RxAct := .ignored
  deriving DecidableEq, Repr

-- `os_memcpy` out of the frame
def octetsAt (pos n : ℕ) : Option Octets :=
  if pos + n ≤ frame.length then some ((frame.drop pos).take n) else none

-- `hs20_rx_gas_initial_req`, where `data` is at the offset `off`
def hs20RxGasInitialReq (off len : ℕ) : Option Outcome :=
  let fin := off + len
  if len < 1 + 2 then some {}
  else
    frame[off]?.bind fun dialogToken =>
      frame[off + 1]?.bind fun eid =>
        if eid ≠ eidAdvProto then some {}
        else
          frame[off + 2]?.bind fun slen =>
            let next := off + 3 + slen.toNat
            if fin < next ∨ slen.toNat < 2 then some {}
            else
              frame[off + 4]?.bind fun proto =>
                if proto ≠ accessNetworkQueryProtocol then
                  frame[10]?.bind fun sa =>
                    if sa &&& 0x01 ≠ 0 then some {}
                    else
                      (octetsAt frame (off + 1) (2 + slen.toNat)).map fun advProto =>
                        { act := .unsupported
                            (gasBuildResp gasInitialResp dialogToken statusGasAdvProtoNotSupported 0 false 0 ++
                              advProto ++ [0, 0]) }
                else if fin < next + 2 then some {}
                else
                  (le16At frame next).bind fun qlen =>
                    let pos := next + 2
                    if fin < pos + qlen then some {}
                    else
                      (rxElements hapd frame pos (pos + qlen) {}).map fun r =>
                        { qi := r.1, act := if r.2 then .processed dialogToken else .ignored }

-- The part of `hs20_rx_gas_comeback_req` that reads the frame
def hs20RxGasComebackReq (off len : ℕ) : Option Outcome :=
  if len < 1 then some {} else frame[off]?.map fun dialogToken => { act := .comeback dialogToken }

def hostapdRxPublicAction : Option Outcome :=
  let hdrLen := 25
  if frame.length < hdrLen then some {}
  else
    frame[24]?.bind fun category =>
      if category ≠ actionPublic then some {}
      else
        (difference frame.length hdrLen).bind fun len =>
          frame[hdrLen]?.bind fun action =>
            if action = gasInitialReq then
              (difference len 1).bind fun len => hs20RxGasInitialReq hapd frame (hdrLen + 1) len
            else if action = gasComebackReq then
              (difference len 1).bind fun len => hs20RxGasComebackReq frame (hdrLen + 1) len
            else some {}

-- Where `handle_action` sends a frame
inductive Handler where
  | dropped | wmm | saQuery | publicAction | vendorSpecific | unknown
  deriving DecidableEq, Repr

def robustActionFrame (category : UInt8) : Bool := category ≠ actionPublic && category ≠ actionHt

-- `handle_action` with the callback of `hs20_ap_init`; `mfp` says that the source is a station which
-- uses management frame protection.
def handleAction (mfp : Bool) : Handler :=
  if frame.length < 24 + 1 then .dropped
  else
    let category := frame.getD 24 0
    let protectedBit := frame.getD 1 0 &&& 0x40
    if mfp ∧ ¬(protectedBit ≠ 0 ∧ robustActionFrame category) then .dropped
    else if category = actionWmm then .wmm
    else if category = actionSaQuery then .saQuery
    else if category = actionPublic then .publicAction
    else if category = actionVendorSpecific then .vendorSpecific
    else .unknown

structure QueryElem where
  infoId : ℕ
  body : Octets
  infoId_lt : infoId < 65536
  length_lt : body.length < 65536

def QueryElem.octets (e : QueryElem) : Octets := putLE16 e.infoId ++ putLE16 e.body.length ++ e.body

def infoIds : Octets → List ℕ
  | x :: y :: l => (x.toNat + 256 * y.toNat) :: infoIds l
  | _ => []

def infoIdReq : ℕ → Option Req
  | 257 => some .capabilityList
  | 258 => some .venueName
  | 260 => some .networkAuthType
  | 261 => some .roamingConsortium
  | 262 => some .ipAddrTypeAvailability
  | 263 => some .naiRealm
  | 264 => some .cellularNetwork
  | 268 => some .domainName
  | _ => none

def subtypeReq : ℕ → Option Req
  | 2 => some .hsCapabilityList
  | 3 => some .operatorFriendlyName
  | 4 => some .wanMetrics
  | 5 => some .connectionCapability
  | _ => none

def vendorReqs (body : Octets) : List Req :=
  if body.take 4 = [0x50, 0x6f, 0x9a, hs20AnqpOuiType] then
    match body.drop 4 with
    | [] => []
    | subtype :: rest =>
      if subtype = hs20StypeQueryList then rest.filterMap fun s => subtypeReq s.toNat
      else if subtype = hs20StypeNaiHomeRealmQuery then [.naiHomeRealm]
      else []
  else []

def QueryElem.reqs (e : QueryElem) : List Req :=
  if e.infoId = anqpQueryList then (infoIds e.body).filterMap infoIdReq
  else if e.infoId = anqpVendorSpecific then vendorReqs e.body
  else []

def WellFormedPrefix (query : Octets) (es : List QueryElem) (tail : Octets) : Prop :=
  query = es.flatMap QueryElem.octets ++ tail ∧ ∀ (e : QueryElem) (rest : Octets), tail ≠ e.octets ++ rest

def InitialReq (frame : Octets) (dialogToken : UInt8) (query : Octets) : Prop :=
  ∃ header advProto rest : Octets, header.length = 25 ∧ header[24]? = some actionPublic ∧
    2 ≤ advProto.length ∧ advProto.length < 256 ∧
    advProto[1]? = some accessNetworkQueryProtocol ∧ query.length < 65536 ∧
    frame = header ++ [gasInitialReq, dialogToken, eidAdvProto, UInt8.ofNat advProto.length] ++ advProto ++
      putLE16 query.length ++ query ++ rest

def Requests (mask : BitVec 32) (reqs : List Req) : Prop :=
  ∀ i, mask.getLsbD i = true ↔ ∃ r ∈ reqs, r.position = i

-- What the parsers make of a frame: the parameter that they keep is in the frame, the request mask is
-- that of the query, and only a query that is well formed to its end is processed.
structure Parsed (frame : Octets) (out : Outcome) : Prop where
  param : ∀ pos, out.qi.param = some pos → pos + out.qi.paramArg ≤ frame.length
  query : ∀ dialogToken query, InitialReq frame dialogToken query →
    ∃ es tail, WellFormedPrefix query es tail ∧ Requests out.qi.request (es.flatMap QueryElem.reqs) ∧
      out.act = if tail = [] then .processed dialogToken else .ignored
  no_query : (¬∃ dialogToken query, InitialReq frame dialogToken query) → out.qi = {}

def ParsesQuery (hapd : AnqpConf) (frame : Octets) : Prop :=
  ∃ out, hostapdRxPublicAction hapd frame = some out ∧ Parsed frame out

section Masks

def addReqs (mask : BitVec 32) (reqs : List Req) : BitVec 32 := reqs.foldl (fun m r => m ||| r.bit) mask

theorem addReqs_append (mask : BitVec 32) (rs ss : List Req) :
    addReqs mask (rs ++ ss) = addReqs (addReqs mask rs) ss := List.foldl_append

theorem position_lt (r : Req) : r.position < 32 := by cases r <;> decide

theorem requests_addReqs (reqs : List Req) : Requests (addReqs 0 reqs) reqs := by
  have hfold : ∀ (rs : List Req) (mask : BitVec 32) (i : ℕ),
      (addReqs mask rs).getLsbD i = true ↔ mask.getLsbD i = true ∨ ∃ r ∈ rs, r.position = i := by
    intro rs
    induction rs with
    | nil => simp [addReqs]
    | cons r rs ih =>
      intro mask i
      have hbit : r.bit.getLsbD i = true ↔ r.position = i := by
        have hlt := position_lt r
        rw [Req.bit, BitVec.getLsbD_twoPow]
        simp [hlt]
      have hcons : addReqs mask (r :: rs) = addReqs (mask ||| r.bit) rs := rfl
      rw [hcons, ih, BitVec.getLsbD_or, Bool.or_eq_true, hbit, List.exists_mem_cons_iff, or_assoc]
  intro i
  rw [hfold]
  simp

def Inside (frame : Octets) (qi : QueryInfo) : Prop :=
  ∀ pos, qi.param = some pos → pos + qi.paramArg ≤ frame.length

structure Adds (frame : Octets) (reqs : List Req) (qi qi' : QueryInfo) : Prop where
  request : qi'.request = addReqs qi.request reqs
  inside : Inside frame qi → Inside frame qi'

variable {hapd : AnqpConf} {frame : Octets} {rs ss : List Req} {qi qi' qi'' : QueryInfo}

theorem Adds.refl : Adds frame [] qi qi := ⟨rfl, id⟩

theorem Adds.trans (h : Adds frame rs qi qi') (h' : Adds frame ss qi' qi'') : Adds frame (rs ++ ss) qi qi'' where
  request := by rw [h'.request, h.request, addReqs_append]
  inside hin := h'.inside (h.inside hin)

theorem adds_setAnqpReq (r : Req) (isLocal : Bool) (remote : BitVec 32) (remoteDelay : UInt16) :
    Adds frame [r] qi (setAnqpReq r.bit isLocal remote remoteDelay qi) := by
  unfold setAnqpReq
  split_ifs
  · exact ⟨rfl, id⟩
  · exact ⟨rfl, id⟩
  · exact ⟨rfl, id⟩

theorem adds_queryListId (infoId : ℕ) :
    Adds frame (infoIdReq infoId).toList qi (rxAnqpQueryListId hapd infoId qi) := by
  unfold rxAnqpQueryListId infoIdReq
  split
  all_goals first | exact adds_setAnqpReq _ _ _ _ | exact Adds.refl

theorem adds_hsQueryList (subtype : ℕ) :
    Adds frame (subtypeReq subtype).toList qi (rxAnqpHsQueryList hapd subtype qi) := by
  unfold rxAnqpHsQueryList subtypeReq
  split
  all_goals first | exact adds_setAnqpReq _ _ _ _ | exact Adds.refl

theorem adds_homeRealm {pos fin : ℕ} (hpos : pos ≤ fin) (hfin : fin ≤ frame.length) :
    ∃ qi', rxAnqpHsNaiHomeRealm hapd pos fin qi = some qi' ∧ Adds frame [.naiHomeRealm] qi qi' := by
  have hdiff : difference fin pos = some (fin - pos) := if_pos hpos
  have hinside : ∀ p, some pos = some p → p + (fin - pos) ≤ frame.length := by
    rintro p ⟨⟩
    omega
  rw [rxAnqpHsNaiHomeRealm, hdiff, Option.map_some]
  refine ⟨_, rfl, ?_⟩
  split_ifs
  · exact ⟨rfl, fun _ => hinside⟩
  · exact ⟨rfl, fun _ => hinside⟩

end Masks

section Parsers

variable {hapd : AnqpConf} {frame : Octets}

def segment (frame : Octets) (pos fin : ℕ) : Octets := (frame.drop pos).take (fin - pos)

theorem length_segment (pos : ℕ) {fin : ℕ} (hfin : fin ≤ frame.length) : (segment frame pos fin).length = fin - pos := by
  rw [segment, List.length_take, List.length_drop]
  omega

variable {pos fin : ℕ}

theorem segment_nil (h : fin ≤ pos) : segment frame pos fin = [] := by
  rw [segment, Nat.sub_eq_zero_of_le h, List.take_zero]

theorem segment_cons (frame : Octets) (pos : ℕ) {fin : ℕ} (hpos : pos < fin) (hfin : fin ≤ frame.length) :
    ∃ x, frame[pos]? = some x ∧ segment frame pos fin = x :: segment frame (pos + 1) fin := by
  have hlen : pos < frame.length := by omega
  have hcount : fin - pos = (fin - (pos + 1)) + 1 := by omega
  refine ⟨frame[pos], List.getElem?_eq_getElem hlen, ?_⟩
  rw [segment, List.drop_eq_getElem_cons hlen, hcount, List.take_succ_cons, segment]

theorem segment_append (mid : ℕ) (hmid : pos ≤ mid) (hfin : mid ≤ fin) :
    segment frame pos fin = segment frame pos mid ++ segment frame mid fin := by
  have hcount : fin - pos = (mid - pos) + (fin - mid) := by omega
  have hdrop : pos + (mid - pos) = mid := by omega
  rw [segment, hcount, List.take_add, List.drop_drop, hdrop]
  rfl

theorem le16At_segment (frame : Octets) (pos : ℕ) {fin : ℕ} (hpos : pos + 2 ≤ fin) (hfin : fin ≤ frame.length) :
    ∃ x y : UInt8, le16At frame pos = some (x.toNat + 256 * y.toNat) ∧
      segment frame pos fin = x :: y :: segment frame (pos + 2) fin := by
  obtain ⟨x, hx, hsegx⟩ := segment_cons frame pos (by omega) hfin
  obtain ⟨y, hy, hsegy⟩ := segment_cons frame (pos + 1) (by omega) hfin
  refine ⟨x, y, ?_, by rw [hsegx, hsegy]⟩
  rw [le16At, hx, Option.bind_some, hy, Option.map_some]

theorem infoIds_short {l : Octets} (h : l.length < 2) : infoIds l = [] := by
  rcases l with _ | ⟨x, _ | ⟨y, l⟩⟩
  · rfl
  · rfl
  · simp only [List.length_cons] at h
    omega

theorem rxAnqpQueryList_adds {qi : QueryInfo} (hfin : fin ≤ frame.length) :
    ∃ qi', rxAnqpQueryList hapd frame pos fin qi = some qi' ∧
      Adds frame ((infoIds (segment frame pos fin)).filterMap infoIdReq) qi qi' := by
  fun_induction rxAnqpQueryList hapd frame pos fin qi with
  | case1 pos qi hpos ih =>
    obtain ⟨x, y, hid, hseg⟩ := le16At_segment frame pos hpos hfin
    obtain ⟨qi', hrun, hadds⟩ := ih (x.toNat + 256 * y.toNat)
    refine ⟨qi', by rw [hid, Option.bind_some, hrun], ?_⟩
    have hreqs : (infoIds (segment frame pos fin)).filterMap infoIdReq =
        (infoIdReq (x.toNat + 256 * y.toNat)).toList ++
          (infoIds (segment frame (pos + 2) fin)).filterMap infoIdReq := by
      rw [hseg, infoIds, List.filterMap_cons]
      cases infoIdReq (x.toNat + 256 * y.toNat) <;> rfl
    rw [hreqs]
    exact (adds_queryListId _).trans hadds
  | case2 pos qi hpos =>
    refine ⟨qi, rfl, ?_⟩
    have hlen := length_segment pos hfin
    rw [infoIds_short (by omega)]
    exact Adds.refl

theorem rxSubtypes_adds {qi : QueryInfo} (hfin : fin ≤ frame.length) :
    ∃ qi', rxSubtypes hapd frame pos fin qi = some qi' ∧
      Adds frame ((segment frame pos fin).filterMap fun s => subtypeReq s.toNat) qi qi' := by
  fun_induction rxSubtypes hapd frame pos fin qi with
  | case1 pos qi hpos ih =>
    obtain ⟨x, hx, hseg⟩ := segment_cons frame pos hpos hfin
    obtain ⟨qi', hrun, hadds⟩ := ih x
    refine ⟨qi', by rw [hx, Option.bind_some, hrun], ?_⟩
    have hreqs : ((segment frame pos fin).filterMap fun s => subtypeReq s.toNat) =
        (subtypeReq x.toNat).toList ++
          (segment frame (pos + 1) fin).filterMap fun s => subtypeReq s.toNat := by
      rw [hseg, List.filterMap_cons]
      cases subtypeReq x.toNat <;> rfl
    rw [hreqs]
    exact (adds_hsQueryList _).trans hadds
  | case2 pos qi hpos =>
    refine ⟨qi, rfl, ?_⟩
    rw [segment_nil (by omega)]
    exact Adds.refl

theorem be24_wfa (x y z : UInt8) :
    65536 * x.toNat + 256 * y.toNat + z.toNat = ouiWfa ↔ x = 0x50 ∧ y = 0x6f ∧ z = 0x9a := by
  have hx := x.toNat_lt
  have hy := y.toNat_lt
  have hz := z.toNat_lt
  constructor
  · intro h
    have hoctets : x.toNat = 0x50 ∧ y.toNat = 0x6f ∧ z.toNat = 0x9a := by
      unfold ouiWfa at h
      omega
    obtain ⟨h1, h2, h3⟩ := hoctets
    exact ⟨UInt8.toNat_inj.1 h1, UInt8.toNat_inj.1 h2, UInt8.toNat_inj.1 h3⟩
  · rintro ⟨rfl, rfl, rfl⟩
    rfl

theorem rxAnqpVendorSpecific_adds {qi : QueryInfo} (hfin : fin ≤ frame.length) :
    ∃ qi', rxAnqpVendorSpecific hapd frame pos fin qi = some qi' ∧
      Adds frame (vendorReqs (segment frame pos fin)) qi qi' := by
  rw [rxAnqpVendorSpecific]
  by_cases hshort : fin < pos + 4
  · have hlen : ((segment frame pos fin).take 4).length < 4 := by
      rw [List.length_take, length_segment _ hfin]
      omega
    have hnone : vendorReqs (segment frame pos fin) = [] := by
      rw [vendorReqs, if_neg]
      intro heq
      rw [heq] at hlen
      exact absurd hlen (by decide)
    rw [if_pos hshort, hnone]
    exact ⟨qi, rfl, Adds.refl⟩
  · obtain ⟨x, hx, hsegx⟩ := segment_cons frame pos (by omega) hfin
    obtain ⟨y, hy, hsegy⟩ := segment_cons frame (pos + 1) (by omega) hfin
    obtain ⟨z, hz, hsegz⟩ := segment_cons frame (pos + 2) (by omega) hfin
    obtain ⟨t, ht, hsegt⟩ := segment_cons frame (pos + 3) (by omega) hfin
    have hseg : segment frame pos fin = x :: y :: z :: t :: segment frame (pos + 4) fin := by
      rw [hsegx, hsegy, hsegz, hsegt]
    have hbe : be24At frame pos = some (65536 * x.toNat + 256 * y.toNat + z.toNat) := by
      rw [be24At, hx, Option.bind_some, hy, Option.bind_some, hz, Option.map_some]
    have htake : (x :: y :: z :: t :: segment frame (pos + 4) fin).take 4 = [x, y, z, t] := rfl
    have hdrop : (x :: y :: z :: t :: segment frame (pos + 4) fin).drop 4 = segment frame (pos + 4) fin := rfl
    rw [if_neg hshort, hbe, Option.bind_some, hseg, vendorReqs, htake, hdrop]
    by_cases houi : 65536 * x.toNat + 256 * y.toNat + z.toNat = ouiWfa
    · obtain ⟨rfl, rfl, rfl⟩ := (be24_wfa x y z).1 houi
      rw [if_neg (not_not.2 houi), ht, Option.bind_some]
      by_cases htype : t = hs20AnqpOuiType
      · rw [if_neg (not_not.2 htype), htype, if_pos rfl]
        by_cases hempty : pos + 4 = fin
        · rw [if_pos hempty, segment_nil (Nat.le_of_eq hempty.symm)]
          exact ⟨qi, rfl, Adds.refl⟩
        obtain ⟨subtype, hsub, hsegs⟩ :=
          segment_cons frame (pos + 4) (by omega) hfin
        rw [if_neg hempty, hsub, Option.bind_some, hsegs]
        by_cases hlist : subtype = hs20StypeQueryList
        · simp only [if_pos hlist]
          exact rxSubtypes_adds hfin
        by_cases hrealm : subtype = hs20StypeNaiHomeRealmQuery
        · simp only [if_neg hlist, if_pos hrealm]
          exact adds_homeRealm (by omega) hfin
        · simp only [if_neg hlist, if_neg hrealm]
          exact ⟨qi, rfl, Adds.refl⟩
      · have hne : [(0x50 : UInt8), 0x6f, 0x9a, t] ≠ [0x50, 0x6f, 0x9a, hs20AnqpOuiType] := by simpa using htype
        rw [if_pos htype, if_neg hne]
        exact ⟨qi, rfl, Adds.refl⟩
    · have hne : [x, y, z, t] ≠ [0x50, 0x6f, 0x9a, hs20AnqpOuiType] := by
        intro heq
        obtain ⟨hx', hy', hz', -⟩ : x = 0x50 ∧ y = 0x6f ∧ z = 0x9a ∧ t = hs20AnqpOuiType := by simpa using heq
        exact houi ((be24_wfa x y z).2 ⟨hx', hy', hz'⟩)
      rw [if_pos houi, if_neg hne]
      exact ⟨qi, rfl, Adds.refl⟩

theorem rxElement_adds (hapd : AnqpConf) (e : QueryElem) {pos fin : ℕ} (qi : QueryInfo) (hfin : fin ≤ frame.length)
    (hbody : e.body = segment frame pos fin) :
    ∃ qi', rxElement hapd frame e.infoId pos fin qi = some qi' ∧ Adds frame e.reqs qi qi' := by
  unfold rxElement QueryElem.reqs
  by_cases hlist : e.infoId = anqpQueryList
  · rw [if_pos hlist, if_pos hlist, hbody]
    exact rxAnqpQueryList_adds hfin
  rw [if_neg hlist, if_neg hlist]
  by_cases hvendor : e.infoId = anqpVendorSpecific
  · rw [if_pos hvendor, if_pos hvendor, hbody]
    exact rxAnqpVendorSpecific_adds hfin
  · rw [if_neg hvendor, if_neg hvendor]
    exact ⟨qi, rfl, Adds.refl⟩

theorem putLE16_octets (x y : UInt8) : putLE16 (x.toNat + 256 * y.toNat) = [x, y] := by
  have hx := x.toNat_lt
  have hdiv : (x.toNat + 256 * y.toNat) / 256 = y.toNat := by omega
  have hlow : UInt8.ofNat (x.toNat + 256 * y.toNat) = x := by
    apply UInt8.toNat_inj.1
    rw [UInt8.toNat_ofNat']
    omega
  rw [putLE16, hdiv, hlow, UInt8.ofNat_toNat]

theorem toNat_putLE16 {n : ℕ} (h : n < 65536) :
    (UInt8.ofNat n).toNat + 256 * (UInt8.ofNat (n / 256)).toNat = n := by
  rw [UInt8.toNat_ofNat', UInt8.toNat_ofNat']
  omega

theorem not_elem_of_short {tail : Octets} (h : tail.length < 4) (e : QueryElem) (rest : Octets) :
    tail ≠ e.octets ++ rest := by
  rintro rfl
  simp only [QueryElem.octets, putLE16, List.length_append, List.length_cons, List.length_nil] at h
  omega

theorem not_elem_of_long {x y u v : UInt8} {l : Octets} (h : l.length < u.toNat + 256 * v.toNat) (e : QueryElem)
    (rest : Octets) : x :: y :: u :: v :: l ≠ e.octets ++ rest := by
  intro heq
  simp only [QueryElem.octets, putLE16, List.cons_append, List.nil_append, List.cons.injEq] at heq
  obtain ⟨-, -, rfl, rfl, rfl⟩ := heq
  rw [toNat_putLE16 e.length_lt, List.length_append] at h
  omega

theorem rxElements_adds (hapd : AnqpConf) {pos fin : ℕ} (qi : QueryInfo) (hpos : pos ≤ fin) (hfin : fin ≤ frame.length) :
    ∃ es tail qi', WellFormedPrefix (segment frame pos fin) es tail ∧
      rxElements hapd frame pos fin qi = some (qi', decide (tail = [])) ∧
      Adds frame (es.flatMap QueryElem.reqs) qi qi' := by
  fun_induction rxElements hapd frame pos fin qi with
  | case1 pos qi hlt hshort =>
    have hlen := length_segment pos hfin
    have hne : segment frame pos fin ≠ [] := List.ne_nil_of_length_pos (by omega)
    refine ⟨[], segment frame pos fin, qi, ⟨rfl, not_elem_of_short (by omega)⟩, ?_, Adds.refl⟩
    rw [decide_eq_false hne]
  | case2 pos qi hlt hlong ih =>
    obtain ⟨x, y, hid, hseg⟩ := le16At_segment frame pos (by omega) hfin
    obtain ⟨u, v, helen, hseg'⟩ := le16At_segment frame (pos + 2) (by omega) hfin
    rw [hid, Option.bind_some, helen, Option.bind_some]
    have hhead : segment frame pos fin = x :: y :: u :: v :: segment frame (pos + 4) fin := by rw [hseg, hseg']
    have hlen := length_segment (pos + 4) hfin
    by_cases hover : fin < pos + 4 + (u.toNat + 256 * v.toNat)
    · refine ⟨[], segment frame pos fin, qi, ⟨rfl, ?_⟩, ?_, Adds.refl⟩
      · rw [hhead]
        exact not_elem_of_long (by omega)
      · rw [if_pos hover, hhead]
        rfl
    · have hx := x.toNat_lt
      have hy := y.toNat_lt
      have hu := u.toNat_lt
      have hv := v.toNat_lt
      have hinside : pos + 4 + (u.toNat + 256 * v.toNat) ≤ frame.length := by omega
      have hbody := length_segment (pos + 4) hinside
      let e : QueryElem :=
        { infoId := x.toNat + 256 * y.toNat
          body := segment frame (pos + 4) (pos + 4 + (u.toNat + 256 * v.toNat))
          infoId_lt := by omega
          length_lt := by omega }
      obtain ⟨qi₁, helem, hadds⟩ := rxElement_adds hapd e qi (by omega) rfl
      obtain ⟨es, tail, qi₂, ⟨hquery, htail⟩, hrun, hrest⟩ := ih _ hover qi₁ (by omega)
      refine ⟨e :: es, tail, qi₂, ⟨?_, htail⟩, ?_, hadds.trans hrest⟩
      · have hoctets : e.octets = x :: y :: u :: v :: e.body := by
          have hcount : e.body.length = u.toNat + 256 * v.toNat := by
            rw [hbody]
            omega
          rw [QueryElem.octets, hcount, putLE16_octets, putLE16_octets]
          rfl
        rw [hhead, segment_append (pos + 4 + (u.toNat + 256 * v.toNat)) (by omega) (by omega), hquery,
          List.flatMap_cons, hoctets, List.append_assoc]
        rfl
      · rw [if_neg hover, helem, Option.bind_some, hrun]
  | case3 pos qi hend =>
    rw [segment_nil (by omega)]
    exact ⟨[], [], qi, ⟨rfl, not_elem_of_short (by decide)⟩, rfl, Adds.refl⟩

end Parsers

section Layout

variable {frame : Octets} {dialogToken : UInt8}

-- A request by the octets at their places
structure Layout (frame : Octets) (dialogToken slen : UInt8) (qlen : ℕ) : Prop where
  category_at : frame[24]? = some actionPublic
  action_at : frame[25]? = some gasInitialReq
  token_at : frame[26]? = some dialogToken
  eid_at : frame[27]? = some eidAdvProto
  slen_at : frame[28]? = some slen
  two_le : 2 ≤ slen.toNat
  proto_at : frame[30]? = some accessNetworkQueryProtocol
  qlen_at : le16At frame (29 + slen.toNat) = some qlen
  length_le : 31 + slen.toNat + qlen ≤ frame.length

theorem getElem?_append_add (l m : Octets) {n : ℕ} (i : ℕ) (h : l.length = n) : (l ++ m)[n + i]? = m[i]? := by
  rw [List.getElem?_append_right (by omega), ← h, Nat.add_sub_cancel_left]

theorem drop_eq_cons {l : Octets} {i : ℕ} {x : UInt8} (h : l[i]? = some x) : l.drop i = x :: l.drop (i + 1) := by
  obtain ⟨hi, rfl⟩ := List.getElem?_eq_some_iff.1 h
  exact List.drop_eq_getElem_cons hi

theorem octets_at {header : Octets} (adv : Octets) (hheader : header.length = 25) (a b c d x y : UInt8) (t : Octets) :
    (∀ i, (header ++ (a :: b :: c :: d :: (adv ++ (x :: y :: t))))[25 + i]? =
      (a :: b :: c :: d :: (adv ++ (x :: y :: t)))[i]?) ∧
    (∀ i, (header ++ (a :: b :: c :: d :: (adv ++ (x :: y :: t))))[29 + adv.length + i]? = (x :: y :: t)[i]?) ∧
    (header ++ (a :: b :: c :: d :: (adv ++ (x :: y :: t)))).drop (31 + adv.length) = t := by
  have hpre : (header ++ [a, b, c, d] ++ adv).length = 29 + adv.length := by
    rw [List.length_append, List.length_append, hheader]
    rfl
  have hsplit : header ++ (a :: b :: c :: d :: (adv ++ (x :: y :: t))) =
      (header ++ [a, b, c, d] ++ adv) ++ (x :: y :: t) := by simp
  refine ⟨fun i => getElem?_append_add _ _ i hheader, fun i => ?_, ?_⟩
  · rw [hsplit]
    exact getElem?_append_add _ _ i hpre
  · have hdrop : 31 + adv.length = (29 + adv.length) + 2 := by omega
    rw [hsplit, hdrop, ← List.drop_drop, List.drop_left' hpre]
    rfl

theorem InitialReq.layout {query : Octets} (h : InitialReq frame dialogToken query) :
    ∃ slen, Layout frame dialogToken slen query.length ∧
      query = segment frame (31 + slen.toNat) (31 + slen.toNat + query.length) := by
  obtain ⟨header, adv, rest, hheader, hcategory, htwo, hadv, hproto, hquery, hframe⟩ := h
  have hslen : (UInt8.ofNat adv.length).toNat = adv.length := by
    rw [UInt8.toNat_ofNat']
    omega
  have hparts : frame = header ++ (gasInitialReq :: dialogToken :: eidAdvProto :: UInt8.ofNat adv.length ::
      (adv ++ (UInt8.ofNat query.length :: UInt8.ofNat (query.length / 256) :: (query ++ rest)))) := by
    rw [hframe]
    simp [putLE16]
  obtain ⟨hat, hatq, hdrop⟩ := octets_at adv hheader gasInitialReq dialogToken eidAdvProto
    (UInt8.ofNat adv.length) (UInt8.ofNat query.length) (UInt8.ofNat (query.length / 256)) (query ++ rest)
  rw [← hparts] at hat hatq hdrop
  refine ⟨UInt8.ofNat adv.length, ?_, ?_⟩
  · refine ⟨?_, hat 0, hat 1, hat 2, hat 3, by omega, ?_, ?_, ?_⟩
    · rw [hparts, List.getElem?_append_left (by omega), hcategory]
    · rw [← hproto]
      refine (hat 5).trans ?_
      exact List.getElem?_append_left (show 1 < adv.length by omega)
    · rw [hslen, le16At]
      have hfirst := hatq 0
      have hsecond := hatq 1
      rw [Nat.add_zero] at hfirst
      rw [hfirst, hsecond]
      exact congrArg some (toNat_putLE16 hquery)
    · have hlen := congrArg List.length hparts
      simp only [List.length_append, List.length_cons, hheader] at hlen
      omega
  · rw [hslen, segment, hdrop, Nat.add_sub_cancel_left, List.take_left' rfl]

theorem Layout.initialReq {slen : UInt8} {qlen : ℕ} (h : Layout frame dialogToken slen qlen) :
    InitialReq frame dialogToken (segment frame (31 + slen.toNat) (31 + slen.toNat + qlen)) := by
  obtain ⟨hcategory, haction, htoken, heid, hslen, htwo, hproto, hqlen, hle⟩ := h
  obtain ⟨x, y, hle16, hseg⟩ := le16At_segment frame (29 + slen.toNat)
    (by omega) (Nat.le_refl _)
  have hx := x.toNat_lt
  have hy := y.toNat_lt
  have hcount : qlen = x.toNat + 256 * y.toNat := Option.some.inj (hqlen.symm.trans hle16)
  have hsegment : ∀ pos, segment frame pos frame.length = frame.drop pos := fun pos =>
    List.take_of_length_le (by rw [List.length_drop])
  have hadvlen : ((frame.drop 29).take slen.toNat).length = slen.toNat := by
    rw [List.length_take, List.length_drop]
    omega
  have hqlength := length_segment (31 + slen.toNat) hle
  rw [Nat.add_sub_cancel_left] at hqlength
  refine ⟨frame.take 25, (frame.drop 29).take slen.toNat, frame.drop (31 + slen.toNat + qlen), ?_, ?_, ?_, ?_, ?_,
    ?_, ?_⟩
  · rw [List.length_take]
    omega
  · rw [List.getElem?_take_of_lt (by omega), hcategory]
  · omega
  · have := slen.toNat_lt
    omega
  · rw [List.getElem?_take_of_lt (by omega), List.getElem?_drop, hproto]
  · omega
  · have hquery : frame.drop (31 + slen.toNat) =
        segment frame (31 + slen.toNat) (31 + slen.toNat + qlen) ++ frame.drop (31 + slen.toNat + qlen) := by
      rw [← hsegment, segment_append (31 + slen.toNat + qlen) (by omega) hle, hsegment]
    have hfield : frame.drop (29 + slen.toNat) = x :: y :: frame.drop (31 + slen.toNat) := by
      have hnext : 29 + slen.toNat + 2 = 31 + slen.toNat := by omega
      rw [← hsegment, hseg, hsegment, hnext]
    rw [hqlength, hcount, putLE16_octets, ← hcount, hadvlen, UInt8.ofNat_toNat]
    calc
      frame = frame.take 25 ++ frame.drop 25 := (List.take_append_drop 25 frame).symm
      _ = frame.take 25 ++ [gasInitialReq, dialogToken, eidAdvProto, slen] ++ frame.drop 29 := by
          rw [drop_eq_cons haction, drop_eq_cons htoken, drop_eq_cons heid, drop_eq_cons hslen]
          simp
      _ = frame.take 25 ++ [gasInitialReq, dialogToken, eidAdvProto, slen] ++ (frame.drop 29).take slen.toNat ++
            frame.drop (29 + slen.toNat) := by
          rw [List.append_assoc _ (List.take _ _), ← List.drop_drop, List.take_append_drop]
      _ = _ := by
          rw [hfield, hquery]
          simp

end Layout

section Dispatch

variable {hapd : AnqpConf} {frame : Octets}

theorem parsed_early {out : Outcome} (hqi : out.qi = {})
    (hnone : ∀ dialogToken slen qlen, ¬Layout frame dialogToken slen qlen) : Parsed frame out where
  param := by
    rw [hqi]
    rintro pos ⟨⟩
  query dialogToken query h := by
    obtain ⟨slen, hlayout, -⟩ := h.layout
    exact (hnone _ _ _ hlayout).elim
  no_query _ := hqi

theorem parsed_query (hapd : AnqpConf) {dialogToken slen : UInt8} {qlen : ℕ} (h : Layout frame dialogToken slen qlen) :
    ∃ r, rxElements hapd frame (31 + slen.toNat) (31 + slen.toNat + qlen) {} = some r ∧
      Parsed frame ⟨r.1, if r.2 then .processed dialogToken else .ignored⟩ := by
  obtain ⟨es, tail, qi, hprefix, hrun, hadds⟩ := rxElements_adds hapd {}
    (Nat.le_add_right (31 + slen.toNat) qlen) h.length_le
  refine ⟨_, hrun, ⟨hadds.inside (by rintro pos ⟨⟩), fun token query hreq => ?_, fun hno => ?_⟩⟩
  · obtain ⟨slen', hlayout, hquery⟩ := hreq.layout
    obtain rfl := Option.some.inj (h.token_at.symm.trans hlayout.token_at)
    obtain rfl := Option.some.inj (h.slen_at.symm.trans hlayout.slen_at)
    obtain rfl := Option.some.inj (h.qlen_at.symm.trans hlayout.qlen_at)
    rw [← hquery] at hprefix
    refine ⟨es, tail, hprefix, ?_, ?_⟩
    · rw [hadds.request]
      exact requests_addReqs _
    · simp
  · exact (hno ⟨_, _, h.initialReq⟩).elim

theorem octet_at (frame : Octets) (i : ℕ) (h : i < frame.length) : ∃ x, frame[i]? = some x :=
  ⟨frame[i], List.getElem?_eq_getElem h⟩

theorem hs20RxGasInitialReq_parses (hlen : 26 ≤ frame.length) (hcategory : frame[24]? = some actionPublic)
    (haction : frame[25]? = some gasInitialReq) :
    ∃ out, hs20RxGasInitialReq hapd frame 26 (frame.length - 26) = some out ∧ Parsed frame out := by
  have hend : 26 + (frame.length - 26) = frame.length := by omega
  simp only [hs20RxGasInitialReq, hend]
  by_cases hshort : frame.length - 26 < 1 + 2
  · refine ⟨{}, by rw [if_pos hshort], parsed_early rfl fun token slen qlen hlayout => ?_⟩
    have := hlayout.length_le
    omega
  obtain ⟨token, htoken⟩ := octet_at frame 26 (by omega)
  obtain ⟨eid, heid⟩ := octet_at frame 27 (by omega)
  obtain ⟨slen, hslen⟩ := octet_at frame 28 (by omega)
  rw [if_neg hshort, htoken, Option.bind_some, heid, Option.bind_some]
  by_cases heq : eid = eidAdvProto
  swap
  · refine ⟨{}, by rw [if_pos heq], parsed_early rfl fun token slen qlen hlayout => ?_⟩
    exact heq (Option.some.inj (heid.symm.trans hlayout.eid_at))
  rw [if_neg (not_not.2 heq), hslen, Option.bind_some]
  by_cases hadv : frame.length < 26 + 3 + slen.toNat ∨ slen.toNat < 2
  · refine ⟨{}, by rw [if_pos hadv], parsed_early rfl fun token slen' qlen hlayout => ?_⟩
    obtain rfl := Option.some.inj (hslen.symm.trans hlayout.slen_at)
    have hle := hlayout.length_le
    have htwo := hlayout.two_le
    omega
  obtain ⟨proto, hproto⟩ := octet_at frame 30 (by omega)
  rw [if_neg hadv, hproto, Option.bind_some]
  by_cases hanqp : proto = accessNetworkQueryProtocol
  swap
  · have hnone : ∀ token slen qlen, ¬Layout frame token slen qlen := fun _ _ _ hlayout =>
      hanqp (Option.some.inj (hproto.symm.trans hlayout.proto_at))
    obtain ⟨sa, hsa⟩ := octet_at frame 10 (by omega)
    have hcopy : octetsAt frame (26 + 1) (2 + slen.toNat) = some ((frame.drop 27).take (2 + slen.toNat)) :=
      if_pos (by omega)
    rw [if_pos hanqp, hsa, Option.bind_some, hcopy, Option.map_some]
    split_ifs
    · exact ⟨_, rfl, parsed_early rfl hnone⟩
    · exact ⟨_, rfl, parsed_early rfl hnone⟩
  have hnext : 26 + 3 + slen.toNat = 29 + slen.toNat := rfl
  rw [if_neg (not_not.2 hanqp)]
  by_cases hfield : frame.length < 26 + 3 + slen.toNat + 2
  · refine ⟨{}, by rw [if_pos hfield], parsed_early rfl fun token slen' qlen hlayout => ?_⟩
    obtain rfl := Option.some.inj (hslen.symm.trans hlayout.slen_at)
    have hle := hlayout.length_le
    omega
  obtain ⟨x, y, hqlen, -⟩ := le16At_segment frame (29 + slen.toNat)
    (by omega) (Nat.le_refl _)
  rw [if_neg hfield, hnext, hqlen, Option.bind_some]
  by_cases hover : frame.length < 29 + slen.toNat + 2 + (x.toNat + 256 * y.toNat)
  · refine ⟨{}, by rw [if_pos hover], parsed_early rfl fun token slen' qlen hlayout => ?_⟩
    obtain rfl := Option.some.inj (hslen.symm.trans hlayout.slen_at)
    obtain rfl := Option.some.inj (hqlen.symm.trans hlayout.qlen_at)
    have hle := hlayout.length_le
    omega
  have hlayout : Layout frame token slen (x.toNat + 256 * y.toNat) :=
    ⟨hcategory, haction, htoken, by rw [heid, heq], hslen, by omega, by rw [hproto, hanqp], hqlen, by omega⟩
  obtain ⟨r, hrun, hparsed⟩ := parsed_query hapd hlayout
  have hpos : 29 + slen.toNat + 2 = 31 + slen.toNat := by omega
  rw [if_neg hover, hpos, hrun, Option.map_some]
  exact ⟨_, rfl, hparsed⟩

theorem parsesQuery_of_length (hlen : frame.length ≠ 25) : ParsesQuery hapd frame := by
  unfold ParsesQuery hostapdRxPublicAction
  by_cases hshort : frame.length < 25
  · refine ⟨{}, by simp only [if_pos hshort], parsed_early rfl fun token slen qlen hlayout => ?_⟩
    have hle := hlayout.length_le
    omega
  obtain ⟨category, hcategory⟩ := octet_at frame 24 (by omega)
  obtain ⟨action, haction⟩ := octet_at frame 25 (by omega)
  have hdiff : difference frame.length 25 = some (frame.length - 25) := if_pos (by omega)
  have hone : difference (frame.length - 25) 1 = some (frame.length - 26) := if_pos (by omega)
  simp only [if_neg hshort, hcategory, Option.bind_some, hdiff, haction, hone]
  by_cases hpublic : category = actionPublic
  · by_cases hinitial : action = gasInitialReq
    · rw [if_neg (not_not.2 hpublic), if_pos hinitial]
      rw [hpublic] at hcategory
      rw [hinitial] at haction
      exact hs20RxGasInitialReq_parses (by omega) hcategory haction
    have hnone : ∀ token slen qlen, ¬Layout frame token slen qlen := fun _ _ _ hlayout =>
      hinitial (Option.some.inj (haction.symm.trans hlayout.action_at))
    rw [if_neg (not_not.2 hpublic), if_neg hinitial]
    by_cases hcomeback : action = gasComebackReq
    · rw [if_pos hcomeback, hs20RxGasComebackReq]
      by_cases htoken : frame.length - 26 < 1
      · exact ⟨{}, by rw [if_pos htoken], parsed_early rfl hnone⟩
      obtain ⟨token, htoken'⟩ := octet_at frame 26 (by omega)
      rw [if_neg htoken, htoken']
      exact ⟨_, rfl, parsed_early rfl hnone⟩
    · rw [if_neg hcomeback]
      exact ⟨{}, rfl, parsed_early rfl hnone⟩
  · refine ⟨{}, by rw [if_pos hpublic], parsed_early rfl fun token slen qlen hlayout => ?_⟩
    exact hpublic (Option.some.inj (hcategory.symm.trans hlayout.category_at))

end Dispatch

theorem handleAction_category {frame : Octets} {mfp : Bool} (h : handleAction frame mfp = .publicAction) :
    frame[24]? = some actionPublic := by
  simp only [handleAction] at h
  split_ifs at h with hshort hmfp hwmm hsa hpublic hvendor
  obtain ⟨x, hx⟩ := octet_at frame 24 (by omega)
  rw [List.getD_eq_getElem?_getD, hx] at hpublic
  rw [hx]
  exact congrArg some hpublic

theorem hostapdRxPublicAction_short {hapd : AnqpConf} {frame : Octets} (hcategory : frame[24]? = some actionPublic)
    (hlen : frame.length = 25) : hostapdRxPublicAction hapd frame = none := by
  have hend : frame[25]? = none := List.getElem?_eq_none (by omega)
  have hdiff : difference 25 25 = some 0 := rfl
  unfold hostapdRxPublicAction
  rw [hcategory]
  simp only [hlen, hend, hdiff, Nat.lt_irrefl, if_false, Option.bind_some, Option.bind_none, ne_eq,
    not_true_eq_false]

-- A frame that ends with its category is read past its end; every other frame is parsed as its
-- query says.
theorem handleAction_parses (hapd : AnqpConf) (frame : Octets) (mfp : Bool)
    (h : handleAction frame mfp = .publicAction) : ParsesQuery hapd frame ↔ frame.length ≠ 25 := by
  constructor
  · rintro ⟨out, hrun, -⟩ hlen
    rw [hostapdRxPublicAction_short (handleAction_category h) hlen] at hrun
    cases hrun
  · exact parsesQuery_of_length

theorem handleAction_parses_sample :
    ParsesQuery {} (List.replicate 24 0 ++ [4, 10, 7, 108, 2, 0, 0, 6, 0, 0, 1, 2, 0, 1, 1]) :=
  (handleAction_parses {} _ false (by decide)).2 (by decide)

theorem hostapdRxPublicAction_past_end :
    handleAction (List.replicate 24 0 ++ [4]) false = .publicAction ∧
      hostapdRxPublicAction {} (List.replicate 24 0 ++ [4]) = none ∧
      ¬ParsesQuery {} (List.replicate 24 0 ++ [4]) := by
  have hnone : hostapdRxPublicAction {} (List.replicate 24 0 ++ [4]) = none :=
    hostapdRxPublicAction_short (by decide) (by decide)
  refine ⟨by decide, hnone, fun h => ?_⟩
  obtain ⟨out, hrun, -⟩ := h
  rw [hnone] at hrun
  cases hrun

end WpaSupplicant.Ap.GasRequest

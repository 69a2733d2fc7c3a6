import WpaSupplicant.Lib.Allocated
import WpaSupplicant.P2p.Frames.RoundTrip
import WpaSupplicant.Wps.RegistrarData

namespace WpaSupplicant.Wps.Encapsulation

open Lib.Octets Lib.Allocated Lib.Checked Pointers P2p.Pointers P2p.Frames

def maxVendorExtensions : ℕ := 10
def maxSecDeviceTypes : ℕ := 5

-- What the elements of an AP are built from, with the settings of the Registrar that other data leaves out;
-- `configP2p` says that the build has `CONFIG_P2P`.
structure IeData where
  configP2p : Bool := false
  ctx : Context
  reg : RegistrarData
  selRegUnion : Bool := false
  selRegDevPasswordIdOverride : ℤ := -1
  selRegConfigMethodsOverride : ℤ := -1
  dualband : Bool := false
  staticWepOnly : Bool := false
  setIeCb : Bool := true
  vendorExt : List.Vector (Option Octets) maxVendorExtensions := .replicate _ none

-- What `wps_build_probe_req_ie` takes
structure ProbeReq where
  wps2 : Bool := false
  pbc : Bool := false
  dev : DeviceData
  configMethods : BitVec 16 := 0
  secDevTypes : List (BitVec 64) := []
  p2p : Bool := false
  uuid : BitVec 128 := 0
  reqType : BitVec 8 := 0
  reqDevTypes : List (BitVec 64) := []
  secDevTypes_le : secDevTypes.length ≤ maxSecDeviceTypes

section Attributes

variable (d : IeData)

-- `wps_build_wps_state` of the Registrar
def buildWpsState : ℕ × Octets := (attrWpsState, putBE 1 d.ctx.wpsState)

-- `wps_build_ap_setup_locked`
def buildApSetupLocked : List (ℕ × Octets) :=
  if d.ctx.apSetupLocked ≠ 0 ∧ d.ctx.apSetupLocked ≠ 2 then [(attrApSetupLocked, [1])] else []

-- `wps_build_selected_registrar`
def buildSelectedRegistrar : List (ℕ × Octets) := if d.selRegUnion then [(attrSelectedRegistrar, [1])] else []

def selRegId : BitVec 16 :=
  if 0 ≤ d.selRegDevPasswordIdOverride then .ofInt 16 d.selRegDevPasswordIdOverride
  else if d.reg.pbc then devPwPushbutton
  else devPwDefault

-- `wps_build_sel_reg_dev_password_id`
def buildSelRegDevPasswordId : List (ℕ × Octets) := if d.selRegUnion then [buildDevPasswordId (selRegId d)] else []

-- `wps_build_sel_pbc_reg_uuid_e`
def buildSelPbcRegUuidE : List (ℕ × Octets) :=
  if d.selRegUnion ∧ selRegId d = devPwPushbutton ∧ d.dualband then [buildUuidE d.ctx.uuid] else []

-- `wps_set_pushbutton`
def setPushbutton (wps2 : Bool) (methods conf : BitVec 16) : BitVec 16 :=
  let methods := methods ||| configPushbutton
  if wps2 then
    let methods := if conf &&& configVirtPushbutton ≠ 0 then methods ||| configVirtPushbutton else methods
    let methods := if conf &&& configPhyPushbutton ≠ 0 then methods ||| configPhyPushbutton else methods
    if methods &&& (configVirtPushbutton ||| configPhyPushbutton) = 0 then methods ||| configPhyPushbutton
    else methods
  else methods

def plainMethods : BitVec 16 :=
  let methods := d.ctx.configMethods &&& ~~~configPushbutton
  if d.ctx.wps2 then methods &&& ~~~(configVirtPushbutton ||| configPhyPushbutton) else methods

-- `wps_build_sel_reg_config_methods`
def buildSelRegConfigMethods : List (ℕ × Octets) :=
  if d.selRegUnion then
    let methods := if d.reg.pbc then setPushbutton d.ctx.wps2 (plainMethods d) d.ctx.configMethods else plainMethods d
    [(attrSelectedRegistrarConfigMethods,
      putBE 2 (if 0 ≤ d.selRegConfigMethodsOverride then .ofInt 16 d.selRegConfigMethodsOverride else methods))]
  else []

-- `wps_build_probe_config_methods`
def buildProbeConfigMethods : ℕ × Octets := buildConfigMethods (plainMethods d)

-- `wps_build_req_type` and `wps_build_resp_type`
def buildReqType (type : BitVec 8) : ℕ × Octets := (attrRequestType, putBE 1 type)
def buildRespType (type : BitVec 8) : ℕ × Octets := (attrResponseType, putBE 1 type)

-- `WPS_RESP_REGISTRAR`, `WPS_RESP_AP` and `WPS_REQ_ENROLLEE`
def respRegistrar : BitVec 8 := 2
def respAp : BitVec 8 := 3
def reqEnrollee : BitVec 8 := 1

-- `wps_build_wfa_ext`
def buildWfaExtFor (wps2 reqToEnroll : Bool) (authMacs : List Addr) : List (ℕ × Octets) :=
  if wps2 then
    [(attrVendorExt, toBE 3 vendorIdWfa ++ [0x00, 0x01, 0x20] ++ (if reqToEnroll then [0x03, 0x01, 0x01] else []) ++
      if authMacs = [] then []
      else [0x01, UInt8.ofNat (authMacs.length * 6)] ++ authMacs.flatMap (putBE 6))]
  else []

-- `wps_build_vendor_ext`
def buildVendorExt : List (ℕ × Octets) := d.vendorExt.toList.reduceOption.map fun e => (attrVendorExt, e)

-- `wps_build_dev_name` and the other functions for strings
def buildDevName (dev : DeviceData) : ℕ × Octets := (attrDevName, orSpace dev.deviceName)
def buildManufacturer (dev : DeviceData) : ℕ × Octets := (attrManufacturer, orSpace dev.manufacturer)
def buildModelName (dev : DeviceData) : ℕ × Octets := (attrModelName, orSpace dev.modelName)
def buildModelNumber (dev : DeviceData) : ℕ × Octets := (attrModelNumber, orSpace dev.modelNumber)

-- `wps_build_primary_dev_type`
def buildPrimaryDevType (dev : DeviceData) : ℕ × Octets := (attrPrimaryDevType, putBE 8 dev.priDevType)

-- `wps_build_req_dev_type`
def buildReqDevType (types : List (BitVec 64)) : List (ℕ × Octets) :=
  types.map fun t => (attrRequestedDevType, putBE 8 t)

-- `wps_build_secondary_dev_type`
def buildSecondaryDevType (types : List (BitVec 64)) : List (ℕ × Octets) :=
  if types = [] then [] else [(attrSecondaryDevTypeList, types.flatMap (putBE 8))]

def beaconAttrs : List (ℕ × Octets) :=
  [buildVersion, buildWpsState d] ++ buildApSetupLocked d ++ buildSelectedRegistrar d ++ buildSelRegDevPasswordId d ++
    buildSelRegConfigMethods d ++ buildSelPbcRegUuidE d ++ (if d.dualband then [buildRfBands d.ctx.dev] else []) ++
    buildWfaExtFor d.ctx.wps2 false d.reg.authorizedMacsUnion.advertised ++ buildVendorExt d ++
    if d.configP2p then [buildDevName d.ctx.dev, buildPrimaryDevType d.ctx.dev] else []

def probeRespAttrs : List (ℕ × Octets) :=
  [buildVersion, buildWpsState d] ++ buildApSetupLocked d ++ buildSelectedRegistrar d ++ buildSelRegDevPasswordId d ++
    buildSelRegConfigMethods d ++ [buildRespType (if d.ctx.ap then respAp else respRegistrar),
      buildUuidE d.ctx.uuid] ++
    buildDeviceAttrs d.ctx.dev ++ [buildProbeConfigMethods d, buildRfBands d.ctx.dev] ++
    buildWfaExtFor d.ctx.wps2 false d.reg.authorizedMacsUnion.advertised ++ buildVendorExt d

def probeReqAttrs (p : ProbeReq) : List (ℕ × Octets) :=
  [buildVersion, buildReqType p.reqType, buildConfigMethods p.configMethods, buildUuidE p.uuid,
    buildPrimaryDevType p.dev, buildRfBands p.dev, buildAssocState, buildConfigError cfgNoError,
    buildDevPasswordId (if p.pbc then devPwPushbutton else devPwDefault)] ++
    (if p.wps2 then
      [buildManufacturer p.dev, buildModelName p.dev, buildModelNumber p.dev, buildDevName p.dev] ++
        buildWfaExtFor true (p.reqType = reqEnrollee) []
    else []) ++
    buildReqDevType p.reqDevTypes ++ buildSecondaryDevType p.secDevTypes ++
    if p.wps2 then [] else if p.p2p then [buildDevName p.dev] else []

-- The attributes in a buffer of an allocated size; one for which there is no room ends the process.
def putAttrs (size : ℕ) (attrs : List (ℕ × Octets)) : Option Octets := putAll size [] (attrs.map fun a => tlv a.1 a.2)

def vendorLen : ℕ := (d.vendorExt.toList.reduceOption.map fun e => 4 + e.length).sum

end Attributes

-- The loop of `wps_ie_encapsulate`, with the element that is built
def encapsulateFrom (size : ℕ) (data ie : Octets) : Option Octets :=
  if data = [] then some ie
  else
    let fragLen := if 251 < data.length then 251 else data.length
    (putAll size ie [[221], [UInt8.ofNat (4 + fragLen)], toBE 4 wpsDevOuiWfa, data.take fragLen]).bind fun ie =>
      encapsulateFrom size (data.drop fragLen) ie
termination_by data.length
decreasing_by
  rename_i h
  rw [List.length_drop]
  have hpos := List.length_pos_iff.2 h
  split <;> omega

-- `wps_ie_encapsulate`, where the allocation succeeds
def wpsIeEncapsulate (data : Octets) : Option Octets := encapsulateFrom (data.length + 100) data []

-- The buffers that `wps_set_ie` encapsulates, for the Beacon and the Probe Response
def wpsSetIeBufs (d : IeData) : Option (Octets × Octets) :=
  (putAttrs (400 + vendorLen d) (beaconAttrs d)).bind fun beacon =>
    (putAttrs (500 + vendorLen d) (probeRespAttrs d)).map fun probe => (beacon, probe)

-- The Microsoft Provisioning element that tells of no IEEE 802.1X
def msWps : Octets := [221, 5, 0x00, 0x50, 0xf2, 5, 0x00]

def putMsWps (d : IeData) (data ie : Octets) : Option Octets :=
  if d.staticWepOnly then putAll (data.length + 100) ie [msWps] else some ie

-- `wps_set_ie`: the elements for `set_ie_cb`, where the allocations succeed
def wpsSetIe (d : IeData) : Option (Option (Octets × Octets)) :=
  if !d.setIeCb then some none
  else
    (wpsSetIeBufs d).bind fun bufs =>
    (wpsIeEncapsulate bufs.1).bind fun beacon =>
    (wpsIeEncapsulate bufs.2).bind fun probe =>
    (putMsWps d bufs.1 beacon).bind fun beacon =>
    (putMsWps d bufs.2 probe).map fun probe => some (beacon, probe)

-- The buffer that `wps_build_probe_req_ie` encapsulates
def probeReqBuf (p : ProbeReq) : Option Octets := putAttrs 500 (probeReqAttrs p)

-- `wps_build_probe_req_ie`, where the allocation succeeds
def wpsBuildProbeReqIe (p : ProbeReq) : Option Octets := (probeReqBuf p).bind wpsIeEncapsulate

section Theorems

variable {size : ℕ} {data ie : Octets}

def contents (data : Octets) : List Octets := (pieces 251 data).map (toBE 4 wpsDevOuiWfa ++ ·)

theorem whole_contents : ∀ c ∈ contents data, Whole c := by
  intro c hc
  obtain ⟨frag, hfrag, rfl⟩ := List.mem_map.1 hc
  have hlen := length_of_mem_pieces (by decide) data frag hfrag
  have hlength : (toBE 4 wpsDevOuiWfa ++ frag).length = 4 + frag.length := by rw [List.length_append, length_toBE]
  exact ⟨by omega, by omega⟩

theorem length_contents (l : List Octets) :
    ((l.map (toBE 4 wpsDevOuiWfa ++ ·)).flatMap element).length = 6 * l.length + l.flatten.length := by
  induction l with
  | nil => rfl
  | cons frag l ih =>
    rw [List.map_cons, List.flatMap_cons, List.length_append, ih, element, List.flatten_cons, List.length_cons,
      List.length_cons, List.length_cons, List.length_append, List.length_append, length_toBE]
    omega

theorem encapsulateFrom_eq (hie : ie.length ≤ size) :
    encapsulateFrom size data ie =
      if ie.length + ((contents data).flatMap element).length ≤ size then some (ie ++ (contents data).flatMap element)
      else none := by
  induction data using pieces_induction (n := 251) (by decide) generalizing ie with
  | hnil =>
    have hnone : contents [] = [] := by rw [contents, pieces_nil, List.map_nil]
    rw [encapsulateFrom, if_pos rfl, hnone, List.flatMap_nil, List.append_nil, List.length_nil,
      Nat.add_zero, if_pos hie]
  | hcons data hdata ih =>
    have hfrag : data.take (if 251 < data.length then 251 else data.length) = data.take 251 := by
      split
      · rfl
      · rw [List.take_of_length_le (Nat.le_refl _), List.take_of_length_le (by omega)]
    have hrest : data.drop (if 251 < data.length then 251 else data.length) = data.drop 251 := by
      split
      · rfl
      · rw [List.drop_of_length_le (Nat.le_refl _), List.drop_of_length_le (by omega)]
    have hlen : (if 251 < data.length then 251 else data.length) = (data.take 251).length := by
      rw [List.length_take]
      split <;> omega
    have hcontents : contents data = (toBE 4 wpsDevOuiWfa ++ data.take 251) :: contents (data.drop 251) := by
      rw [contents, pieces_cons (by decide) hdata]
      rfl
    have hpiece : [[221], [UInt8.ofNat (4 + (data.take 251).length)], toBE 4 wpsDevOuiWfa, data.take 251].flatten =
        element (toBE 4 wpsDevOuiWfa ++ data.take 251) := by
      rw [element, List.length_append, length_toBE]
      simp
    rw [encapsulateFrom, if_neg hdata]
    dsimp only
    rw [hfrag, hrest, hlen, putAll_eq hie, hpiece, hcontents, List.flatMap_cons, List.length_append]
    by_cases hroom : ie.length + (element (toBE 4 wpsDevOuiWfa ++ data.take 251)).length ≤ size
    · rw [if_pos hroom, Option.bind_some, ih (by rw [List.length_append]; exact hroom), List.length_append,
        List.append_assoc, Nat.add_assoc]
    · rw [if_neg hroom, if_neg (by omega)]
      rfl

-- Sixteen elements fit in the room for the headers.
theorem wpsIeEncapsulate_eq (data : Octets) :
    wpsIeEncapsulate data = if data.length ≤ 4016 then some ((contents data).flatMap element) else none := by
  have hlen := length_contents (pieces 251 data)
  rw [flatten_pieces (by decide)] at hlen
  have hcount := length_pieces_le (n := 251) (by decide) data 16
  change ((contents data).flatMap element).length = _ at hlen
  rw [wpsIeEncapsulate, encapsulateFrom_eq (Nat.zero_le _), hlen]
  by_cases h : data.length ≤ 4016
  · have := hcount.2 h
    rw [if_pos h, if_pos (by rw [List.length_nil]; omega)]
    rfl
  · have := mt hcount.1 h
    rw [if_neg h, if_neg (by rw [List.length_nil]; omega)]

-- The Microsoft Provisioning element has to fit there too: it leaves room for fifteen headers.
def ieRoom (d : IeData) : ℕ := if d.staticWepOnly then 3765 else 4016

def ieOf (d : IeData) (data : Octets) : Octets :=
  (contents data).flatMap element ++ if d.staticWepOnly then msWps else []

theorem putMsWps_eq (d : IeData) (data : Octets) :
    ((wpsIeEncapsulate data).bind fun ie => putMsWps d data ie) =
      if data.length ≤ ieRoom d then some (ieOf d data) else none := by
  have hlen := length_contents (pieces 251 data)
  rw [flatten_pieces (by decide)] at hlen
  change ((contents data).flatMap element).length = _ at hlen
  have hsixteen := length_pieces_le (n := 251) (by decide) data 16
  have hfifteen := length_pieces_le (n := 251) (by decide) data 15
  rw [wpsIeEncapsulate_eq, ieRoom, ieOf]
  by_cases h : data.length ≤ 4016
  · have hpieces := hsixteen.2 h
    rw [if_pos h, Option.bind_some, putMsWps]
    cases d.staticWepOnly with
    | false => simp [h]
    | true =>
      rw [if_pos rfl, if_pos rfl, if_pos rfl, putAll_eq (by omega), List.flatten_singleton, hlen]
      have hms : msWps.length = 7 := rfl
      by_cases hroom : data.length ≤ 3765
      · have := hfifteen.2 hroom
        rw [if_pos hroom, if_pos (by omega)]
      · have := mt hfifteen.1 hroom
        rw [if_neg hroom, if_neg (by omega)]
  · rw [if_neg h, Option.bind_none, if_neg]
    split <;> omega

theorem bind_apart {α β γ δ ε : Type} (x : Option α) (y : Option β) (f : α → Option γ) (g : β → Option δ)
    (k : γ → δ → ε) :
    (x.bind fun a => y.bind fun b => (f a).bind fun a' => (g b).map fun b' => k a' b') =
      (x.bind f).bind fun a' => (y.bind g).map fun b' => k a' b' := by
  cases x with
  | none => rfl
  | some a =>
    cases y with
    | none => cases h : f a <;> simp [h]
    | some b => rfl

-- Both elements are handed over exactly where both buffers are within the room.
theorem wpsSetIe_eq {d : IeData} (hcb : d.setIeCb = true) :
    wpsSetIe d = (wpsSetIeBufs d).bind fun bufs =>
      if bufs.1.length ≤ ieRoom d ∧ bufs.2.length ≤ ieRoom d then some (some (ieOf d bufs.1, ieOf d bufs.2))
      else none := by
  rw [wpsSetIe, hcb]
  refine congrArg (Option.bind _) (funext fun bufs => ?_)
  refine (bind_apart _ _ (putMsWps d bufs.1) (putMsWps d bufs.2) _).trans ?_
  rw [putMsWps_eq, putMsWps_eq, ite_and]
  split
  · split <;> rfl
  · rfl

-- The buffer of a Probe Request is always within the room.
theorem wpsBuildProbeReqIe_eq (p : ProbeReq) :
    wpsBuildProbeReqIe p = (probeReqBuf p).map fun data => (contents data).flatMap element := by
  rw [wpsBuildProbeReqIe]
  cases h : probeReqBuf p with
  | none => rfl
  | some data =>
    rw [probeReqBuf, putAttrs, putAll_eq (Nat.zero_le _)] at h
    split at h
    · rename_i hlen
      cases h
      rw [Option.bind_some, wpsIeEncapsulate_eq, if_pos]
      · rfl
      · rw [List.nil_append]
        rw [List.length_nil] at hlen
        omega
    · cases h

theorem vendorIeConcat_contents (hdata : data ≠ []) :
    vendorIeConcat ((contents data).flatMap element) wpsDevOuiWfa = some (some data) := by
  have htype : ∀ c ∈ contents data, ofType wpsDevOuiWfa c = true := by
    intro c hc
    obtain ⟨frag, -, rfl⟩ := List.mem_map.1 hc
    rw [ofType, List.take_left' (length_toBE _ _), ofBE_toBE]
    rfl
  have hdrop : (contents data).flatMap (·.drop 4) = data := by
    have hcomp : ((·.drop 4) ∘ (toBE 4 wpsDevOuiWfa ++ ·) : Octets → Octets) = id :=
      funext fun frag => List.drop_left' (length_toBE _ _)
    rw [contents, List.flatMap_def, List.map_map, hcomp, List.map_id, flatten_pieces (by decide)]
  have hne : contents data ≠ [] := by
    rw [contents, pieces_cons (by decide) hdata]
    exact List.cons_ne_nil _ _
  have hconcat : Returns (vendorIeConcat ((contents data).flatMap element) wpsDevOuiWfa) fun b =>
      b = vendorBuffer ((contents data).flatMap element) wpsDevOuiWfa := returns_vendorIeConcat
  obtain ⟨b, hb, rfl⟩ := hconcat
  rw [hb, vendorBuffer_elements whole_contents, List.filter_eq_self.2 htype, if_neg hne, hdrop]

-- A buffer that is encapsulated
inductive Passed : Octets → Prop where
  | beacon {d : IeData} {bufs : Octets × Octets} (h : wpsSetIeBufs d = some bufs) : Passed bufs.1
  | probeResp {d : IeData} {bufs : Octets × Octets} (h : wpsSetIeBufs d = some bufs) : Passed bufs.2
  | probeReq {p : ProbeReq} {buf : Octets} (h : probeReqBuf p = some buf) : Passed buf

structure Encapsulated (data ie : Octets) : Prop where
  elements : ∃ cs : List Octets, (∀ c ∈ cs, c.length < 256) ∧ ie = cs.flatMap element
  concat : vendorIeConcat ie wpsDevOuiWfa = some (some data)

theorem putAttrs_eq (attrs : List (ℕ × Octets)) :
    putAttrs size attrs = if (encode attrs).length ≤ size then some (encode attrs) else none := by
  rw [putAttrs, putAll_eq (Nat.zero_le _), encode, List.flatMap_def, List.length_nil, Nat.zero_add, List.nil_append]

theorem putAttrs_ne_nil {a : ℕ × Octets} {attrs : List (ℕ × Octets)} (h : putAttrs size (a :: attrs) = some data) :
    data ≠ [] := by
  rw [putAttrs_eq] at h
  split at h
  · cases h
    rw [encode, List.flatMap_cons, ← List.length_pos_iff, List.length_append, tlv, List.length_append,
      List.length_append, length_toBE, length_toBE]
    omega
  · cases h

theorem Passed.ne_nil (h : Passed data) : data ≠ [] := by
  cases h with
  | beacon h =>
    obtain ⟨beacon, hbeacon, hrest⟩ := Option.bind_eq_some_iff.1 h
    obtain ⟨probe, -, rfl⟩ := Option.map_eq_some_iff.1 hrest
    exact putAttrs_ne_nil hbeacon
  | probeResp h =>
    obtain ⟨beacon, -, hrest⟩ := Option.bind_eq_some_iff.1 h
    obtain ⟨probe, hprobe, rfl⟩ := Option.map_eq_some_iff.1 hrest
    exact putAttrs_ne_nil hprobe
  | probeReq h => exact putAttrs_ne_nil h

-- The encapsulation of a buffer works exactly up to 4016 octets.
theorem encapsulated_iff (h : Passed data) :
    (∃ ie, wpsIeEncapsulate data = some ie ∧ Encapsulated data ie) ↔ data.length ≤ 4016 := by
  rw [wpsIeEncapsulate_eq]
  by_cases hlen : data.length ≤ 4016
  · rw [if_pos hlen]
    refine iff_of_true ⟨_, rfl, ⟨contents data, ?_, rfl⟩, vendorIeConcat_contents h.ne_nil⟩ hlen
    exact fun c hc => (whole_contents c hc).short
  rw [if_neg hlen]
  refine iff_of_false ?_ hlen
  rintro ⟨ie, hie, -⟩
  cases hie

def vendorAp (n : ℕ) : IeData where
  ctx := {}
  reg := {}
  vendorExt := ⟨some (List.replicate n 0) :: List.replicate 9 none, rfl⟩

def vendorBeacon (n : ℕ) : Octets :=
  encode [buildVersion, buildWpsState (vendorAp n), (attrVendorExt, List.replicate n 0)]

theorem passed_vendorAp (n : ℕ) : Passed (vendorBeacon n) := by
  have hbeacon : putAttrs (400 + vendorLen (vendorAp n)) (beaconAttrs (vendorAp n)) = some (vendorBeacon n) := by
    rw [putAttrs_eq]
    refine if_pos ?_
    change (vendorBeacon n).length ≤ 400 + (4 + (List.replicate n (0 : UInt8)).length + 0)
    simp only [vendorBeacon, encode, List.flatMap_cons, List.flatMap_nil, List.length_append, tlv, length_toBE,
      buildVersion, buildWpsState, length_putBE, List.length_replicate, List.length_cons, List.length_nil]
    omega
  have hprobe : (putAttrs (500 + vendorLen (vendorAp n)) (probeRespAttrs (vendorAp n))).isSome := by
    rw [putAttrs_eq, if_pos]
    · rfl
    change (encode ([buildVersion, buildWpsState (vendorAp n), buildRespType respRegistrar, buildUuidE 0] ++
      buildDeviceAttrs {} ++ [buildProbeConfigMethods (vendorAp n), buildRfBands {}] ++
        [(attrVendorExt, List.replicate n 0)])).length ≤ 500 + (4 + (List.replicate n (0 : UInt8)).length + 0)
    simp only [encode, buildDeviceAttrs, orSpace, List.cons_append, List.nil_append, List.flatMap_cons,
      List.flatMap_nil, List.length_append, tlv, length_toBE, buildVersion, buildWpsState, buildRespType, buildUuidE,
      buildProbeConfigMethods, buildConfigMethods, buildRfBands, length_putBE, List.length_replicate,
      List.length_cons, List.length_nil, if_true]
    omega
  obtain ⟨probe, hprobe⟩ := Option.isSome_iff_exists.1 hprobe
  have hbufs : wpsSetIeBufs (vendorAp n) = some (vendorBeacon n, probe) := by
    rw [wpsSetIeBufs, hbeacon, Option.bind_some, hprobe]
    rfl
  exact .beacon hbufs

-- A buffer of 614 octets, which are three fragments
theorem encapsulated_iff_three :
    (∃ ie, wpsIeEncapsulate (vendorBeacon 600) = some ie ∧ Encapsulated (vendorBeacon 600) ie) ↔
      (vendorBeacon 600).length ≤ 4016 := encapsulated_iff (passed_vendorAp 600)

-- A vendor extension of 4003 octets needs a header more than there is room for.
theorem encapsulate_overflow :
    Passed (vendorBeacon 4003) ∧ (vendorBeacon 4003).length = 4017 ∧ wpsIeEncapsulate (vendorBeacon 4003) = none := by
  have hlen : (vendorBeacon 4003).length = 4017 := by
    simp only [vendorBeacon, encode, List.flatMap_cons, List.flatMap_nil, List.length_append, tlv, length_toBE,
      buildVersion, buildWpsState, length_putBE, List.length_replicate, List.length_cons, List.length_nil]
  refine ⟨passed_vendorAp 4003, hlen, ?_⟩
  rw [wpsIeEncapsulate_eq, hlen]
  rfl

end Theorems

end WpaSupplicant.Wps.Encapsulation

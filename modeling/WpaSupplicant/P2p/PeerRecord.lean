import WpaSupplicant.P2p.Lemmas
import WpaSupplicant.P2p.Pointers.Theorems

namespace WpaSupplicant.P2p.Pointers

open Lib.Octets Lib.Buffer Lib.Checked Lib.Records KeyData.Pointers Wps.Pointers

-- The entry of a peer as it is filled from the elements of a frame. A copy that does not fit into the
-- array it is for, or that reads what a buffer does not have, is `none`.

-- What is filled of `struct p2p_device`; the arrays have the sizes that are declared.
structure PeerRecord where
  priDevType : List.Vector UInt8 8 := .replicate 8 0
  deviceName : List.Vector UInt8 33 := .replicate 33 0
  manufacturer : List.Vector UInt8 65 := .replicate 65 0
  modelName : List.Vector UInt8 33 := .replicate 33 0
  modelNumber : List.Vector UInt8 33 := .replicate 33 0
  serialNumber : List.Vector UInt8 33 := .replicate 33 0
  level : ℤ := 0
  configMethods : ℕ := 0
  devCapab : ℕ := 0
  groupCapab : ℕ := 0
  wpsSecDevTypeList : List.Vector UInt8 secDevTypeMaxLen := .replicate secDevTypeMaxLen 0
  wpsSecDevTypeListLen : ℕ := 0
  wpsVendorExt : List Octets := []
  operSsid : List.Vector UInt8 32 := .replicate 32 0
  operSsidLen : ℕ := 0
  extListenPeriod : ℕ := 0
  extListenInterval : ℕ := 0

def P2pMessage.p2pBuf (msg : P2pMessage) : Octets := msg.p2pAttributes.getD []
def P2pMessage.wpsBuf (msg : P2pMessage) : Octets := msg.wpsAttributes.getD []

def copyText {n : ℕ} (buf : Octets) (text : Option Slice) (dst : List.Vector UInt8 n) :
    Option (List.Vector UInt8 n) :=
  match text with
  | some text => if text.len < n then (load buf text.off text.len).bind (fill (.replicate n 0)) else some dst
  | none => some dst

def copyPriDevType (msg : P2pMessage) (dst : List.Vector UInt8 8) : Option (List.Vector UInt8 8) :=
  match msg.priDevType, msg.wpsPriDevType with
  | some p, _ => (load msg.p2pBuf p 8).bind (fill dst)
  | none, some p => (load msg.wpsBuf p 8).bind (fill dst)
  | none, none => some dst

def copySecDevTypes (msg : P2pMessage) (r : PeerRecord) : Option PeerRecord :=
  match msg.wpsSecDevTypeList with
  | some s =>
    (load msg.wpsBuf s.off s.len).bind fun types =>
    (fill r.wpsSecDevTypeList types).map fun list =>
      { r with wpsSecDevTypeList := list, wpsSecDevTypeListLen := s.len }
  | none => some r

def readOr (read : ℕ → Option ℕ) (attr : Option Slice) (default : ℕ) : Option ℕ :=
  match attr with
  | some s => read s.off
  | none => some default

def p2pCopyWpsInfo (probeReq : Bool) (msg : P2pMessage) (r : PeerRecord) : Option PeerRecord :=
  (load msg.deviceName 0 33).bind fun name =>
  (fill r.deviceName name).bind fun deviceName =>
  (copyText msg.wpsBuf msg.manufacturer r.manufacturer).bind fun manufacturer =>
  (copyText msg.wpsBuf msg.modelName r.modelName).bind fun modelName =>
  (copyText msg.wpsBuf msg.modelNumber r.modelNumber).bind fun modelNumber =>
  (copyText msg.wpsBuf msg.serialNumber r.serialNumber).bind fun serialNumber =>
  (copyPriDevType msg r.priDevType).bind fun priDevType =>
  (copySecDevTypes msg r).bind fun r =>
  (readOr (loadBE msg.p2pBuf · 1) (msg.attr .capability) r.devCapab).bind fun devCapab =>
  (readOr (fun p => loadBE msg.p2pBuf (p + 1) 1) (msg.attr .capability) r.groupCapab).bind fun groupCapab =>
  (readOr (loadLE16 msg.p2pBuf) (msg.attr .extListenTiming) r.extListenPeriod).bind fun extListenPeriod =>
  (readOr (fun p => loadLE16 msg.p2pBuf (p + 2)) (msg.attr .extListenTiming) r.extListenInterval).map
    fun extListenInterval =>
      { r with
        deviceName
        manufacturer
        modelName
        modelNumber
        serialNumber
        priDevType
        devCapab
        groupCapab
        extListenPeriod
        extListenInterval
        configMethods :=
          if probeReq then r.configMethods
          else if msg.configMethods ≠ 0 then msg.configMethods else msg.wpsConfigMethods }

def p2pCopyClientInfo (buf : Octets) (cli : P2pClientInfo) (r : PeerRecord) : Option PeerRecord :=
  (load buf cli.devName.off cli.devName.len).bind fun name =>
  (fill r.deviceName (name ++ [0])).bind fun deviceName =>
  (load buf cli.priDevType 8).bind fun devType =>
  (fill r.priDevType devType).bind fun priDevType =>
  (load buf cli.secDevTypes (8 * cli.numSecDevTypes)).bind fun types =>
  (fill r.wpsSecDevTypeList types).map fun wpsSecDevTypeList =>
    { r with
      deviceName
      devCapab := cli.devCapab
      configMethods := cli.configMethods
      priDevType
      wpsSecDevTypeListLen := 8 * cli.numSecDevTypes
      wpsSecDevTypeList }

structure Peers where
  p2p : P2pData
  record : Addr → PeerRecord

def Peers.entry (s : Peers) (addr : Addr) : PeerRecord :=
  if (s.p2p.getDevice addr).isSome then s.record addr else {}

def toDevCapab (capab : ℕ) : DevCapab := ⟨capab.testBit 0, capab.testBit 1⟩

def clientCopied (env : Env) (p2p : P2pData) (addr : Addr) : Bool :=
  match p2p.getDevice addr with
  | some dev => dev.groupClientOnly || dev.probeReqOnly
  | none => (createDevice env p2p addr).2

-- The body of the loop of `p2p_add_group_clients`
def p2pAddGroupClient (env : Env) (goDevAddr goInterfaceAddr : Addr) (freq : ℤ) (buf : Octets) (s : Peers)
    (cli : P2pClientInfo) : Option Peers :=
  (load buf cli.p2pDeviceAddr 6).bind fun deviceAddr =>
  (load buf cli.p2pInterfaceAddr 6).bind fun interfaceAddr =>
    let addr := getBE 48 deviceAddr
    (if clientCopied env s.p2p addr then p2pCopyClientInfo buf cli (s.entry addr) else some (s.entry addr)).map
      fun r =>
        { p2p := addGroupClient env goDevAddr goInterfaceAddr freq s.p2p
            ⟨addr, getBE 48 interfaceAddr, toDevCapab cli.devCapab⟩
          record := Function.update s.record addr r }

-- `p2p_add_group_clients`. An attribute that is malformed adds no client; nor does one that ends before the
-- capabilities of its last client, whatever octet is read there.
def p2pAddGroupClients (env : Env) (goDevAddr goInterfaceAddr : Addr) (freq : ℤ) (msg : P2pMessage) (s : Peers) :
    Option Peers :=
  match msg.attr .groupInfo with
  | none => some s
  | some gi =>
    match p2pGroupInfoParse msg.p2pBuf (some gi) with
    | some (.ok clients) =>
      clients.foldlM (p2pAddGroupClient env goDevAddr goInterfaceAddr freq msg.p2pBuf)
        { s with p2p := addGroupClients env s.p2p goDevAddr goInterfaceAddr freq [] }
    | _ => some s

-- `P2P_WILDCARD_SSID`
def wildcardSsid : Octets := [0x44, 0x49, 0x52, 0x45, 0x43, 0x54, 0x2d]

def copySsid (ies : Octets) (msg : P2pMessage) (r : PeerRecord) : Option PeerRecord :=
  match msg.ssid with
  | none => some r
  | some p =>
    (loadBE ies (p + 1) 1).bind fun len =>
    (load ies (p + 2) len).bind fun ssid =>
      if ssid = wildcardSsid then some r
      else (fill r.operSsid ssid).map fun operSsid => { r with operSsid, operSsidLen := len }

def copyVendorExt (room : Octets → Bool) (msg : P2pMessage) (r : PeerRecord) : Option PeerRecord :=
  (msg.wpsVendorExt.mapM fun s => load msg.wpsBuf s.off s.len).map fun l =>
    { r with wpsVendorExt := l.takeWhile room }

def dsChannel (ies : Octets) (msg : P2pMessage) : Option (Option UInt8) :=
  match msg.dsParams with
  | some p => (loadBE ies p 1).map fun ch => some (UInt8.ofNat ch)
  | none => some none

def p2pDevAddr (msg : P2pMessage) : Option ℕ := msg.p2pDeviceAddr.or ((msg.attr .deviceId).map (·.off))

-- What `p2p_add_device` does with a message of a device
def addEntry (env : Env) (room : Octets → Bool) (s : Peers) (addr : Addr) (freq level : ℤ) (ies : Octets)
    (msg : P2pMessage) (devAddr : Addr) : Option (Peers × Bool) :=
  if s.p2p.peerFilter ≠ 0 ∧ devAddr ≠ s.p2p.peerFilter then some (s, true)
  else
    let c := createDevice env s.p2p devAddr
    if !c.2 then some ({ s with p2p := c.1 }, false)
    else
      (copySsid ies msg (s.entry devAddr)).bind fun r =>
      (dsChannel ies msg).bind fun dsParams =>
        let freq := dsFreq freq dsParams
        (p2pCopyWpsInfo false msg { r with level := level }).bind fun r =>
        (copyVendorExt room msg r).bind fun r =>
          let p2p := c.1.modifyDevice devAddr fun d =>
            { d with
              lastSeen := env.now
              probeReqOnly := false
              groupClientOnly := false
              interfaceAddr := if addr = devAddr then d.interfaceAddr else addr
              listenFreq := freq
              operFreq := if (msg.attr .groupInfo).isSome then freq else d.operFreq
              devCapab := if (msg.attr .capability).isSome then toDevCapab r.devCapab else d.devCapab }
          (p2pAddGroupClients env devAddr addr freq msg { p2p, record := Function.update s.record devAddr r }).map
            fun s => ({ s with p2p := scheduleSd s.p2p devAddr }, true)

def p2pAddDevice (env : Env) (room : Octets → Bool) (s : Peers) (addr : Addr) (freq level : ℤ) (ies : Octets) :
    Option (Peers × Bool) :=
  (p2pParseIes ies {}).bind fun r =>
    match r with
    | .error _ => some (s, false)
    | .ok msg =>
      match p2pDevAddr msg with
      | none => some (s, false)
      | some p =>
        (load msg.p2pBuf p 6).bind fun octets => addEntry env room s addr freq level ies msg (getBE 48 octets)

section Copies

variable {ies buf : Octets} {msg : P2pMessage} {r : PeerRecord} {cli : P2pClientInfo} {n : ℕ}

theorem returns_copyText {text : Option Slice} {dst : List.Vector UInt8 n}
    (h : ∀ t, text = some t → t.off + t.len ≤ buf.length) : Returns (copyText buf text dst) fun _ => True := by
  cases text with
  | none => exact .pure trivial
  | some t =>
    refine .ite (fun hroom => ?_) fun _ => .pure trivial
    refine (returns_load (h t rfl)).bind fun octets hoctets => returns_fill ?_
    rw [hoctets, length_field (h t rfl)]
    omega

theorem returns_copyPriDevType {dst : List.Vector UInt8 8}
    (hp2p : ∀ p, msg.priDevType = some p → p + 8 ≤ msg.p2pBuf.length)
    (hwps : ∀ p, msg.wpsPriDevType = some p → p + 8 ≤ msg.wpsBuf.length) :
    Returns (copyPriDevType msg dst) fun _ => True := by
  have hcopy : ∀ (buf : Octets) p, p + 8 ≤ buf.length → Returns ((load buf p 8).bind (fill dst)) fun _ => True := by
    intro buf p hp
    refine (returns_load hp).bind fun octets hoctets => returns_fill ?_
    rw [hoctets, length_field hp]
  unfold copyPriDevType
  cases hpri : msg.priDevType with
  | some p => exact hcopy _ _ (hp2p p hpri)
  | none =>
    cases hpri' : msg.wpsPriDevType with
    | some p => exact hcopy _ _ (hwps p hpri')
    | none => exact .pure trivial

-- The WPS parser takes no more secondary device types than there is room for.
theorem returns_copySecDevTypes (hmsg : WpsInside msg.wpsBuf msg) :
    Returns (copySecDevTypes msg r) fun _ => True := by
  unfold copySecDevTypes
  split
  · rename_i s hs
    obtain ⟨hin, hlen⟩ := hmsg.wpsSecDevTypeList s hs
    refine (returns_load hin).bind fun types htypes => ?_
    refine (returns_fill ?_).map fun _ _ => trivial
    rw [htypes, length_field hin]
    exact hlen
  · exact .pure trivial

theorem returns_readOr {read : ℕ → Option ℕ} {attr : Option Slice} {default : ℕ}
    (h : ∀ s, attr = some s → Returns (read s.off) fun _ => True) :
    Returns (readOr read attr default) fun _ => True := by
  cases attr with
  | none => exact .pure trivial
  | some s => exact h s rfl

theorem Parsed.least {c : Case} {s : Slice} (hmsg : Parsed ies msg) (hc : c ∈ p2pCases)
    (hs : msg.attr c.field = some s) :
    s.off + c.least ≤ msg.p2pBuf.length := by
  have hin : s.off + max c.least s.len ≤ msg.p2pBuf.length := hmsg.p2p.attr c hc s hs
  omega

theorem Parsed.capability (hmsg : Parsed ies msg) {s : Slice} (hs : msg.attr .capability = some s) :
    s.off + 2 ≤ msg.p2pBuf.length :=
  hmsg.least (c := { id := 2, field := .capability, least := 2, logged := 2 }) (by decide) hs

theorem Parsed.extListenTiming (hmsg : Parsed ies msg) {s : Slice} (hs : msg.attr .extListenTiming = some s) :
    s.off + 4 ≤ msg.p2pBuf.length :=
  hmsg.least (c := { id := 8, field := .extListenTiming, least := 4, logged := 4 }) (by decide) hs

theorem returns_p2pCopyWpsInfo (hmsg : Parsed ies msg) (probeReq : Bool) (r : PeerRecord) :
    Returns (p2pCopyWpsInfo probeReq msg r) fun _ => True := by
  have hname : 0 + 33 ≤ msg.deviceName.length := by rw [hmsg.p2p.deviceName]
  refine (returns_load hname).bind fun name hload => ?_
  refine (returns_fill ?_).bind fun _ _ => ?_
  · rw [hload, length_field hname]
  refine (returns_copyText hmsg.wps.manufacturer).bind fun _ _ => ?_
  refine (returns_copyText hmsg.wps.modelName).bind fun _ _ => ?_
  refine (returns_copyText hmsg.wps.modelNumber).bind fun _ _ => ?_
  refine (returns_copyText hmsg.wps.serialNumber).bind fun _ _ => ?_
  refine (returns_copyPriDevType hmsg.p2p.priDevType hmsg.wps.wpsPriDevType).bind fun _ _ => ?_
  refine (returns_copySecDevTypes hmsg.wps).bind fun _ _ => ?_
  have hcapab : ∀ s, msg.attr .capability = some s → Returns (loadBE msg.p2pBuf s.off 1) fun _ => True := by
    intro s hs
    have hin := hmsg.capability hs
    exact (returns_loadBE (by omega)).mono fun _ _ => trivial
  have hgroup : ∀ s, msg.attr .capability = some s → Returns (loadBE msg.p2pBuf (s.off + 1) 1) fun _ => True := by
    intro s hs
    have hin := hmsg.capability hs
    exact (returns_loadBE (by omega)).mono fun _ _ => trivial
  have hperiod : ∀ s, msg.attr .extListenTiming = some s → Returns (loadLE16 msg.p2pBuf s.off) fun _ => True := by
    intro s hs
    have hin := hmsg.extListenTiming hs
    exact (returns_load (by omega)).map fun _ _ => trivial
  have hinterval : ∀ s, msg.attr .extListenTiming = some s →
      Returns (loadLE16 msg.p2pBuf (s.off + 2)) fun _ => True := by
    intro s hs
    have hin := hmsg.extListenTiming hs
    exact (returns_load (by omega)).map fun _ _ => trivial
  refine (returns_readOr hcapab).bind fun _ _ => ?_
  refine (returns_readOr hgroup).bind fun _ _ => ?_
  refine (returns_readOr hperiod).bind fun _ _ => ?_
  exact (returns_readOr hinterval).map fun _ _ => trivial

def Described (buf : Octets) (cli : P2pClientInfo) : Prop := ∃ g cend, cend ≤ buf.length ∧ Describes cend g cli

theorem Described.interfaceAddr (h : Described buf cli) : cli.p2pInterfaceAddr + 6 ≤ buf.length := by
  obtain ⟨g, cend, hcend, hdesc⟩ := h
  exact hdesc.p2pInterfaceAddr.2.trans hcend

theorem Described.deviceAddr (h : Described buf cli) : cli.p2pDeviceAddr + 6 ≤ buf.length := by
  obtain ⟨g, cend, hcend, hdesc⟩ := h
  exact hdesc.p2pDeviceAddr.2.trans hcend

-- `p2p_copy_client_info`: there is room for 16 secondary device types.
theorem isSome_copyClientInfo (h : Described buf cli) :
    (p2pCopyClientInfo buf cli r).isSome ↔ cli.numSecDevTypes ≤ 16 := by
  obtain ⟨g, cend, hcend, hdesc⟩ := h
  have hname := hdesc.devName.1.trans hcend
  have htypes := hdesc.secDevTypes.trans hcend
  have hpri := hdesc.priDevType.trans hcend
  have hroom := hdesc.devName.2
  have hfit : (field buf cli.devName.off cli.devName.len ++ [0]).length ≤ 33 := by
    rw [List.length_append, length_field hname, List.length_singleton]
    omega
  have hfit' : (field buf cli.priDevType 8).length ≤ 8 := by rw [length_field hpri]
  obtain ⟨name, hfill⟩ := Option.isSome_iff_exists.1 ((isSome_fill (d := r.deviceName)).2 hfit)
  obtain ⟨devType, hfill'⟩ := Option.isSome_iff_exists.1 ((isSome_fill (d := r.priDevType)).2 hfit')
  rw [p2pCopyClientInfo, load_eq hname, Option.bind_some, hfill, Option.bind_some, load_eq hpri, Option.bind_some,
    hfill', Option.bind_some, load_eq htypes, Option.bind_some, Option.isSome_map, isSome_fill, length_field htypes,
    secDevTypeMaxLen]
  omega

end Copies

section Clients

variable {ies buf : Octets} {msg : P2pMessage} {cli : P2pClientInfo} {env : Env} {s s' : P2pData} {goDev goIface a : Addr}
  {freq : ℤ} {d : Device} {c : ClientInfo}

def clientOf (buf : Octets) (cli : P2pClientInfo) : ClientInfo :=
  ⟨getBE 48 (field buf cli.p2pDeviceAddr 6), getBE 48 (field buf cli.p2pInterfaceAddr 6), toDevCapab cli.devCapab⟩

theorem addGroupClient_described (h : Described buf cli) (t : Peers) :
    p2pAddGroupClient env goDev goIface freq buf t cli =
      (if clientCopied env t.p2p (clientOf buf cli).deviceAddr then
          p2pCopyClientInfo buf cli (t.entry (clientOf buf cli).deviceAddr)
        else some (t.entry (clientOf buf cli).deviceAddr)).map fun r =>
          { p2p := addGroupClient env goDev goIface freq t.p2p (clientOf buf cli)
            record := Function.update t.record (clientOf buf cli).deviceAddr r } := by
  rw [p2pAddGroupClient, load_eq h.deviceAddr, Option.bind_some, load_eq h.interfaceAddr, Option.bind_some]
  rfl

def Direct (s : P2pData) (a : Addr) : Prop :=
  ∃ d, s.getDevice a = some d ∧ d.groupClientOnly = false ∧ d.probeReqOnly = false

theorem Direct.not_copied (h : Direct s a) : clientCopied env s a = false := by
  obtain ⟨d, hd, hgroup, hprobe⟩ := h
  rw [clientCopied, hd]
  dsimp only
  rw [hgroup, hprobe]
  rfl

theorem Direct.addGroupClient (h : Direct s c.deviceAddr) :
    Direct (addGroupClient env goDev goIface freq s c) c.deviceAddr := by
  obtain ⟨d, hd, hgroup, hprobe⟩ := h
  unfold P2p.addGroupClient
  rw [hd]
  dsimp only
  refine ⟨_, by rw [getDevice_modifyDevice, hd, Option.map_some, if_pos (getDevice_addr hd)], ?_, rfl⟩
  exact hgroup

-- A table with one entry, and room for no other one
def Alone (s : P2pData) (d : Device) : Prop := s.devices = [d] ∧ s.cfg.maxPeers = 1

theorem Alone.getDevice (h : Alone s d) : s.getDevice a = if d.addr = a then some d else none := by
  rw [P2pData.getDevice, h.1, List.find?_singleton]
  simp

theorem Alone.modifyDevice (h : Alone s d) {f : Device → Device} (heq : d.addr = a) :
    Alone (s.modifyDevice a f) { f d with addr := d.addr } := by
  refine ⟨?_, h.2⟩
  rw [P2pData.modifyDevice, h.1, List.map_singleton, if_pos heq]

theorem clearPointers_empty (h : s.devices = []) :
    (clearPointers s d).devices = [] ∧ (clearPointers s d).cfg = s.cfg := by
  have hptr : ∀ (t : P2pData) ptr f, t.devices = [] →
      (t.modifyPtr ptr f).devices = [] ∧ (t.modifyPtr ptr f).cfg = t.cfg := by
    intro t ptr f ht
    cases ptr with
    | none => exact ⟨ht, rfl⟩
    | some peer => exact ⟨congrArg (List.map _) ht, rfl⟩
  have hfailed : (goNegFailed s (some d) (-1)).devices = [] ∧ (goNegFailed s (some d) (-1)).cfg = s.cfg :=
    hptr (s.clearTimeout.setState .idle) _ _ h
  unfold clearPointers
  dsimp only
  constructor
  · split_ifs
    all_goals first | exact h | exact hfailed.1
  · split_ifs
    all_goals first | rfl | exact hfailed.2

theorem Alone.createDevice (h : Alone s d) (hne : d.addr ≠ a) :
    (createDevice {} s a).2 = true ∧ Alone (createDevice {} s a).1 { addr := a } := by
  have hroom : makeRoom s = removeDevice s d := by
    rw [makeRoom, h.1]
    refine if_pos ?_
    rw [h.2, List.length_singleton]
    decide
  have hfilter : s.devices.filter (·.addr ≠ d.addr) = [] := by
    rw [h.1]
    exact List.filter_cons_of_neg (by simp)
  have hempty := clearPointers_empty (d := d) (s := { s with devices := s.devices.filter (·.addr ≠ d.addr) }) hfilter
  have hnone : ¬ (s.getDevice a).isSome = true := by
    rw [h.getDevice, if_neg hne]
    exact Bool.false_ne_true
  rw [P2p.createDevice, if_neg hnone, hroom]
  refine ⟨rfl, ?_, ?_⟩
  · change ({ addr := a } : Device) :: (removeDevice s d).devices = _
    exact congrArg _ hempty.1
  · change (removeDevice s d).cfg.maxPeers = 1
    exact (congrArg Config.maxPeers hempty.2).trans h.2

-- A client that is not the entry itself, or an entry that is known as a client only, is filled in.
theorem Alone.addGroupClient (h : Alone s d) (hcopy : d.groupClientOnly = true ∨ d.addr ≠ c.deviceAddr) :
    clientCopied {} s c.deviceAddr = true ∧
      ∃ d', Alone (addGroupClient {} goDev goIface freq s c) d' ∧ d'.groupClientOnly = true := by
  by_cases heq : d.addr = c.deviceAddr
  · have hgroup : d.groupClientOnly = true := hcopy.resolve_right (not_not_intro heq)
    have hget : s.getDevice c.deviceAddr = some d := by rw [h.getDevice, if_pos heq]
    rw [clientCopied, P2p.addGroupClient, hget]
    refine ⟨?_, _, h.modifyDevice heq, hgroup⟩
    dsimp only
    rw [hgroup, Bool.true_or]
  · have hget : s.getDevice c.deviceAddr = none := by rw [h.getDevice, if_neg heq]
    obtain ⟨hcreated, halone⟩ := h.createDevice heq
    rw [clientCopied, P2p.addGroupClient, hget]
    dsimp only
    rw [if_pos hcreated]
    exact ⟨hcreated, _, halone.modifyDevice rfl, rfl⟩

theorem Alone.own (h : Alone s d) (heq : d.addr = c.deviceAddr) :
    ∃ d', Alone (P2p.addGroupClient {} goDev goIface freq s c) d' ∧ d'.addr = d.addr := by
  have hget : s.getDevice c.deviceAddr = some d := by rw [h.getDevice, if_pos heq]
  rw [P2p.addGroupClient, hget]
  exact ⟨_, h.modifyDevice heq, rfl⟩

variable {clients : List P2pClientInfo} {t t' : Peers} {devAddr : Addr}

def isOwn (buf : Octets) (devAddr : Addr) (cli : P2pClientInfo) : Bool := (clientOf buf cli).deviceAddr = devAddr

-- There is room for the types of the clients; those that come first and are the device itself are passed over.
def RoomFor (buf : Octets) (devAddr : Addr) (clients : List P2pClientInfo) : Prop :=
  ∀ cli ∈ clients.dropWhile (isOwn buf devAddr), cli.numSecDevTypes ≤ 16

-- What holds before each round of the loop: there is room for all that is left, or the device itself is there.
structure ClientsLeft (buf : Octets) (devAddr : Addr) (t : Peers) (clients : List P2pClientInfo) : Prop where
  described : ∀ cli ∈ clients, Described buf cli
  fit : (∀ cli ∈ clients, cli.numSecDevTypes ≤ 16) ∨ Direct t.p2p devAddr ∧ RoomFor buf devAddr clients

theorem returns_addGroupClient (h : ClientsLeft buf devAddr t (cli :: clients)) :
    Returns (p2pAddGroupClient env goDev goIface freq buf t cli) fun t' => ClientsLeft buf devAddr t' clients := by
  obtain ⟨hdesc, hcase⟩ := h
  obtain ⟨hcli, hdesc⟩ := List.forall_mem_cons.1 hdesc
  have hfits : (∀ x ∈ cli :: clients, x.numSecDevTypes ≤ 16) →
      Returns (p2pAddGroupClient env goDev goIface freq buf t cli) fun t' => ClientsLeft buf devAddr t' clients := by
    intro hall
    obtain ⟨hfit, hrest⟩ := List.forall_mem_cons.1 hall
    rw [addGroupClient_described hcli]
    refine Returns.map (P := fun _ => True) (.ite (fun _ => ?_) fun _ => .pure trivial) fun r _ => ⟨hdesc, .inl hrest⟩
    exact returns_iff.2 ((isSome_copyClientInfo hcli).2 hfit)
  rcases hcase with hall | ⟨hdirect, hroom⟩
  · exact hfits hall
  by_cases hown : isOwn buf devAddr cli = true
  · have heq : (clientOf buf cli).deviceAddr = devAddr := of_decide_eq_true hown
    rw [RoomFor, List.dropWhile_cons_of_pos hown] at hroom
    rw [← heq] at hdirect
    rw [addGroupClient_described hcli, if_neg (by rw [hdirect.not_copied]; exact Bool.false_ne_true)]
    refine .pure ⟨hdesc, .inr ⟨?_, hroom⟩⟩
    rw [← heq]
    exact hdirect.addGroupClient
  · rw [RoomFor, List.dropWhile_cons_of_neg hown] at hroom
    exact hfits hroom

theorem returns_clients (h : ClientsLeft buf devAddr t clients) :
    Returns (clients.foldlM (p2pAddGroupClient env goDev goIface freq buf) t) fun _ => True :=
  (Returns.foldlM (fun _ _ _ => returns_addGroupClient) h).mono fun _ _ => trivial

theorem Alone.step (h : Alone t.p2p d) (hcli : Described buf cli)
    (hcopy : d.groupClientOnly = true ∨ d.addr ≠ (clientOf buf cli).deviceAddr)
    (hstep : p2pAddGroupClient {} goDev goIface freq buf t cli = some t') :
    cli.numSecDevTypes ≤ 16 ∧ ∃ d', Alone t'.p2p d' ∧ d'.groupClientOnly = true := by
  obtain ⟨hcopied, hnext⟩ : clientCopied {} t.p2p (clientOf buf cli).deviceAddr = true ∧
      ∃ d', Alone (P2p.addGroupClient {} goDev goIface freq t.p2p (clientOf buf cli)) d' ∧ d'.groupClientOnly = true :=
    h.addGroupClient hcopy
  rw [addGroupClient_described hcli, if_pos hcopied] at hstep
  obtain ⟨r, hr, rfl⟩ := Option.map_eq_some_iff.1 hstep
  exact ⟨(isSome_copyClientInfo hcli).1 (Option.isSome_of_eq_some hr), hnext⟩

theorem Alone.all_fit (h : Alone t.p2p d) (hdesc : ∀ cli ∈ clients, Described buf cli)
    (hgroup : d.groupClientOnly = true)
    (hsome : (clients.foldlM (p2pAddGroupClient {} goDev goIface freq buf) t).isSome) :
    ∀ cli ∈ clients, cli.numSecDevTypes ≤ 16 := by
  induction clients generalizing t d with
  | nil => exact List.forall_mem_nil _
  | cons cli l ih =>
    obtain ⟨hcli, hdesc⟩ := List.forall_mem_cons.1 hdesc
    rw [List.foldlM_cons] at hsome
    obtain ⟨t₂, hfold⟩ := Option.isSome_iff_exists.1 hsome
    obtain ⟨t₁, hstep, hfold⟩ := Option.bind_eq_some_iff.1 hfold
    obtain ⟨hfit, d', halone, hgroup'⟩ := h.step hcli (.inl hgroup) hstep
    exact List.forall_mem_cons.2 ⟨hfit, ih halone hdesc hgroup' (Option.isSome_of_eq_some hfold)⟩

theorem Alone.roomFor (h : Alone t.p2p d) (hdesc : ∀ cli ∈ clients, Described buf cli) (haddr : d.addr = devAddr)
    (hsome : (clients.foldlM (p2pAddGroupClient {} goDev goIface freq buf) t).isSome) : RoomFor buf devAddr clients := by
  induction clients generalizing t d with
  | nil => exact List.forall_mem_nil _
  | cons cli l ih =>
    obtain ⟨hcli, hrest⟩ := List.forall_mem_cons.1 hdesc
    rw [List.foldlM_cons] at hsome
    obtain ⟨t₂, hfold⟩ := Option.isSome_iff_exists.1 hsome
    obtain ⟨t₁, hstep, hfold⟩ := Option.bind_eq_some_iff.1 hfold
    have hsome' := Option.isSome_of_eq_some hfold
    by_cases hown : isOwn buf devAddr cli = true
    · have heq : (clientOf buf cli).deviceAddr = devAddr := of_decide_eq_true hown
      obtain ⟨d', halone, haddr'⟩ := h.own (haddr.trans heq.symm)
      rw [addGroupClient_described hcli] at hstep
      obtain ⟨r, -, rfl⟩ := Option.map_eq_some_iff.1 hstep
      rw [RoomFor, List.dropWhile_cons_of_pos hown]
      exact ih halone hrest (haddr'.trans haddr) hsome'
    · have hne : d.addr ≠ (clientOf buf cli).deviceAddr := by
        intro heq
        exact hown (decide_eq_true (heq.symm.trans haddr))
      obtain ⟨hfit, d', halone, hgroup⟩ := h.step hcli (.inr hne) hstep
      rw [RoomFor, List.dropWhile_cons_of_neg hown]
      exact List.forall_mem_cons.2 ⟨hfit, halone.all_fit hrest hgroup hsome'⟩

end Clients

section Entries

variable {ies : Octets} {msg : P2pMessage} {env : Env} {s : P2pData} {t : Peers} {r : PeerRecord} {a b devAddr : Addr}
  {freq level : ℤ} {room : Octets → Bool} {d : Device} {gi : Slice} {clients : List P2pClientInfo}

theorem Parsed.deviceAddr (hmsg : Parsed ies msg) {p : ℕ} (hp : p2pDevAddr msg = some p) :
    p + 6 ≤ msg.p2pBuf.length := by
  cases hinfo : msg.p2pDeviceAddr with
  | some q =>
    rw [p2pDevAddr, hinfo, Option.some_or] at hp
    cases hp
    exact hmsg.p2p.p2pDeviceAddr p hinfo
  | none =>
    rw [p2pDevAddr, hinfo, Option.none_or] at hp
    obtain ⟨s, hs, rfl⟩ := Option.map_eq_some_iff.1 hp
    exact hmsg.least (c := { id := 3, field := .deviceId, least := 6, logged := 6 }) (by decide) hs

theorem Parsed.groupInfo (hmsg : Parsed ies msg) (hgi : msg.attr .groupInfo = some gi) :
    gi.off + gi.len ≤ msg.p2pBuf.length := by
  have hin : gi.off + max 0 gi.len ≤ msg.p2pBuf.length :=
    hmsg.p2p.attr { id := 14, field := .groupInfo, least := 0 } (by decide) gi hgi
  omega

theorem Parsed.ssid_inside (hmsg : Parsed ies msg) {p : ℕ} (hp : msg.ssid = some p) :
    p + 2 + lengthAt ies p ≤ ies.length := by
  rw [hmsg.ssid] at hp
  obtain ⟨s, hs, rfl⟩ := Option.map_eq_some_iff.1 hp
  obtain ⟨before, q, after, hsplit, hvalue, -⟩ := latest_eq_some hs
  have hmem : q ∈ elements ies := by
    rw [hsplit]
    exact List.mem_append_right _ List.mem_cons_self
  obtain ⟨-, -, hfin⟩ := mem_records hmem
  rw [ssidElem] at hvalue
  split at hvalue
  · cases hvalue
    rw [elemSize] at hfin
    dsimp only
    rw [Nat.add_sub_cancel]
    omega
  · cases hvalue

theorem described_of_parse {buf : Octets} (hgi : gi.off + gi.len ≤ buf.length)
    (h : p2pGroupInfoParse buf (some gi) = some (.ok clients)) : ∀ cli ∈ clients, Described buf cli := by
  obtain ⟨more, rfl, hmore⟩ := groupInfoFrom_ok hgi [] h
  have hinside : ∀ g ∈ descriptors buf gi.off (gi.off + gi.len), g + descSize buf g ≤ buf.length := by
    intro g hg
    exact (mem_records hg).2.2.trans hgi
  intro cli hcli
  clear h
  generalize descriptors buf gi.off (gi.off + gi.len) = l at hmore hinside
  induction hmore with
  | nil => cases hcli
  | cons hdesc _ ih =>
    obtain ⟨hhere, hrest⟩ := List.forall_mem_cons.1 hinside
    rcases List.mem_cons.1 hcli with rfl | hcli
    · exact ⟨_, _, hhere, hdesc⟩
    · exact ih hcli hrest

-- `os_memcpy(dev->oper_ssid, msg.ssid + 2, msg.ssid[1])`
theorem isSome_copySsid (hmsg : Parsed ies msg) :
    (copySsid ies msg r).isSome ↔ ∀ p, msg.ssid = some p → lengthAt ies p ≤ 32 := by
  unfold copySsid
  cases hssid : msg.ssid with
  | none => exact iff_of_true rfl fun p hp => by cases hp
  | some p =>
    have hin := hmsg.ssid_inside hssid
    have hload : loadBE ies (p + 1) 1 = some (lengthAt ies p) := loadBE_one (by omega)
    have hlen := length_field hin
    simp only [Option.some.injEq, forall_eq']
    rw [hload, Option.bind_some, load_eq hin, Option.bind_some]
    by_cases hwild : field ies (p + 2) (lengthAt ies p) = wildcardSsid
    · rw [hwild] at hlen
      rw [if_pos hwild, ← hlen]
      exact iff_of_true rfl (by decide)
    · rw [if_neg hwild, Option.isSome_map, isSome_fill, hlen]

theorem dsChannel_eq (hmsg : Parsed ies msg) : dsChannel ies msg = some (msg.dsParams.map (octet ies)) := by
  unfold dsChannel
  cases hds : msg.dsParams with
  | none => rfl
  | some p =>
    have hin := hmsg.dsParams p hds
    dsimp only
    rw [loadBE_one (by omega), Option.map_some, UInt8.ofNat_toNat]
    rfl

theorem returns_copyVendorExt (hmsg : Parsed ies msg) : Returns (copyVendorExt room msg r) fun _ => True := by
  refine Returns.map (P := fun _ => True) (.mapM fun s hs => ?_) fun _ _ => trivial
  exact (returns_load (hmsg.wps.wpsVendorExt s hs)).mono fun _ _ => trivial

theorem isSome_getDevice_createDevice (h : (createDevice env s a).2 = true) :
    ((createDevice env s a).1.getDevice a).isSome = true := by
  unfold createDevice at h ⊢
  split
  · assumption
  rename_i hnone
  rw [if_neg hnone] at h
  dsimp only at h ⊢
  split
  · rw [P2pData.getDevice, List.find?_cons_of_pos (by simp)]
    rfl
  rename_i halloc
  rw [if_neg halloc] at h
  cases h

-- The old data of a group says nothing about what is known of a device.
theorem Direct.clear (env : Env) (devAddr b : Addr) (freq : ℤ) (h : Direct s a) :
    Direct (addGroupClients env s devAddr b freq []) a := by
  obtain ⟨d, hd, hgroup, hprobe⟩ := h
  refine ⟨if d.memberInGoIface = b then { d with memberInGoIface := 0, memberInGoDev := 0 } else d, ?_, ?_, ?_⟩
  · have hfind : (s.devices.map fun d =>
        if d.memberInGoIface = b then { d with memberInGoIface := 0, memberInGoDev := 0 } else d).find? (·.addr = a) =
        (s.getDevice a).map fun d =>
          if d.memberInGoIface = b then { d with memberInGoIface := 0, memberInGoDev := 0 } else d := by
      rw [List.find?_map, P2pData.getDevice]
      congr 2
      funext d
      simp only [Function.comp]
      split <;> rfl
    exact hfind.trans (by rw [hd, Option.map_some])
  · split <;> exact hgroup
  · split <;> exact hprobe

theorem Alone.clear (devAddr b : Addr) (freq : ℤ) (h : Alone s d) :
    ∃ d', Alone (addGroupClients {} s devAddr b freq []) d' ∧ d'.addr = d.addr := by
  refine ⟨if d.memberInGoIface = b then { d with memberInGoIface := 0, memberInGoDev := 0 } else d, ⟨?_, h.2⟩, ?_⟩
  · rw [addGroupClients, h.1]
    rfl
  · split <;> rfl

-- `p2p_add_device` for a message whose SSID and clients there is room for
theorem returns_addEntry (hmsg : Parsed ies msg) (hssid : ∀ p, msg.ssid = some p → lengthAt ies p ≤ 32)
    (hclients : ∀ gi clients, msg.attr .groupInfo = some gi → p2pGroupInfoParse msg.p2pBuf (some gi) = some (.ok clients) →
      RoomFor msg.p2pBuf devAddr clients) :
    Returns (addEntry env room t a freq level ies msg devAddr) fun _ => True := by
  refine .ite (fun _ => .pure trivial) fun _ => .ite (fun _ => .pure trivial) fun hcreated => ?_
  have hdirect : ∀ f : Device → Device, (∀ d, (f d).groupClientOnly = false ∧ (f d).probeReqOnly = false) →
      Direct ((createDevice env t.p2p devAddr).1.modifyDevice devAddr f) devAddr := by
    intro f hf
    obtain ⟨d, hd⟩ := Option.isSome_iff_exists.1 (isSome_getDevice_createDevice (by simpa using hcreated))
    refine ⟨{ f d with addr := d.addr }, ?_, hf d⟩
    rw [getDevice_modifyDevice, hd, Option.map_some, if_pos (getDevice_addr hd)]
  refine (returns_iff.2 ((isSome_copySsid hmsg).2 hssid)).bind fun r _ => ?_
  rw [dsChannel_eq hmsg, Option.bind_some]
  refine (returns_p2pCopyWpsInfo hmsg _ _).bind fun r _ => ?_
  refine (returns_copyVendorExt hmsg).bind fun r _ => ?_
  refine Returns.map (P := fun _ => True) ?_ fun _ _ => trivial
  unfold p2pAddGroupClients
  cases hgi : msg.attr .groupInfo with
  | none => exact .pure trivial
  | some gi =>
    dsimp only
    split
    · rename_i clients hparse
      have hdesc := described_of_parse (hmsg.groupInfo hgi) hparse
      have hclear := fun f hf => (hdirect f hf).clear env devAddr a (dsFreq freq (msg.dsParams.map (octet ies)))
      exact returns_clients ⟨hdesc, .inr ⟨hclear _ fun d => ⟨rfl, rfl⟩, hclients gi clients hgi hparse⟩⟩
    · exact .pure trivial

def peerInfo (ies : Octets) (msg : P2pMessage) (devAddr : Addr) : PeerInfo :=
  { deviceAddr := some devAddr
    capability := (msg.attr .capability).map fun s => toDevCapab (octet msg.p2pBuf s.off).toNat
    dsParams := msg.dsParams.map (octet ies)
    groupInfo := (msg.attr .groupInfo).map fun gi =>
      match p2pGroupInfoParse msg.p2pBuf (some gi) with
      | some (.ok clients) => some (clients.map (clientOf msg.p2pBuf))
      | _ => none }

theorem devCapab_of_copyWpsInfo (hmsg : Parsed ies msg) {probeReq : Bool} {r' : PeerRecord}
    (h : p2pCopyWpsInfo probeReq msg r = some r') {c : Slice} (hc : msg.attr .capability = some c) :
    r'.devCapab = (octet msg.p2pBuf c.off).toNat := by
  have hin := hmsg.capability hc
  have hload : loadBE msg.p2pBuf c.off 1 = some (octet msg.p2pBuf c.off).toNat := loadBE_one (by omega)
  iterate 8 obtain ⟨_, -, h⟩ := Option.bind_eq_some_iff.1 h
  obtain ⟨capab, hcapab, h⟩ := Option.bind_eq_some_iff.1 h
  obtain ⟨_, -, h⟩ := Option.bind_eq_some_iff.1 h
  obtain ⟨_, -, h⟩ := Option.bind_eq_some_iff.1 h
  obtain ⟨_, -, rfl⟩ := Option.map_eq_some_iff.1 h
  rw [hc] at hcapab
  exact (Option.some.inj (hload.symm.trans hcapab)).symm

theorem clients_p2p {buf : Octets} {goDev goIface : Addr} {t' : Peers} (hdesc : ∀ cli ∈ clients, Described buf cli)
    (h : clients.foldlM (p2pAddGroupClient env goDev goIface freq buf) t = some t') :
    t'.p2p = (clients.map (clientOf buf)).foldl (addGroupClient env goDev goIface freq) t.p2p := by
  induction clients generalizing t with
  | nil =>
    cases h
    rfl
  | cons cli l ih =>
    obtain ⟨hcli, hdesc⟩ := List.forall_mem_cons.1 hdesc
    rw [List.foldlM_cons] at h
    obtain ⟨t₁, hstep, h⟩ := Option.bind_eq_some_iff.1 h
    rw [addGroupClient_described hcli] at hstep
    obtain ⟨r, -, rfl⟩ := Option.map_eq_some_iff.1 hstep
    exact ih hdesc h

-- The peer table is the one of the model without the records.
theorem addEntry_p2p (hmsg : Parsed ies msg) {res : Peers × Bool}
    (h : addEntry env room t a freq level ies msg devAddr = some res) :
    (res.1.p2p, res.2) = addDevice env t.p2p a freq (peerInfo ies msg devAddr) := by
  rw [addEntry] at h
  rw [addDevice, peerInfo]
  dsimp only
  by_cases hfilter : t.p2p.peerFilter ≠ 0 ∧ devAddr ≠ t.p2p.peerFilter
  · rw [if_pos hfilter] at h ⊢
    cases h
    rfl
  rw [if_neg hfilter] at h ⊢
  dsimp only at h
  by_cases hcreated : (!(createDevice env t.p2p devAddr).2) = true
  · rw [if_pos hcreated] at h ⊢
    cases h
    rfl
  rw [if_neg hcreated] at h ⊢
  obtain ⟨r, -, h⟩ := Option.bind_eq_some_iff.1 h
  rw [dsChannel_eq hmsg, Option.bind_some] at h
  obtain ⟨r', hwps, h⟩ := Option.bind_eq_some_iff.1 h
  obtain ⟨r'', hext, h⟩ := Option.bind_eq_some_iff.1 h
  obtain ⟨t', hclients, rfl⟩ := Option.map_eq_some_iff.1 h
  obtain ⟨l, -, rfl⟩ := Option.map_eq_some_iff.1 hext
  have hcapab : ∀ d : DevCapab, (if (msg.attr .capability).isSome then toDevCapab r'.devCapab else d) =
      ((msg.attr .capability).map fun s => toDevCapab (octet msg.p2pBuf s.off).toNat).getD d := by
    intro d
    cases hc : msg.attr .capability with
    | none => rfl
    | some c => exact congrArg toDevCapab (devCapab_of_copyWpsInfo hmsg hwps hc)
  simp only [hcapab] at hclients
  rw [Option.isSome_map]
  refine Prod.ext (congrArg (scheduleSd · devAddr) ?_) rfl
  unfold p2pAddGroupClients at hclients
  unfold addInfoClients
  cases hgi : msg.attr .groupInfo with
  | none =>
    rw [hgi] at hclients
    cases hclients
    rfl
  | some gi =>
    rw [hgi] at hclients
    dsimp only [Option.map_some] at hclients ⊢
    cases hparse : p2pGroupInfoParse msg.p2pBuf (some gi) with
    | none =>
      rw [hparse] at hclients
      cases hclients
      rfl
    | some res =>
      rw [hparse] at hclients
      cases res with
      | error ret =>
        cases hclients
        rfl
      | ok clients => exact clients_p2p (described_of_parse (hmsg.groupInfo hgi) hparse) hclients

def lone : Peers :=
  { p2p :=
      { cfg :=
          { devAddr := 0
            country := ⟨0, 0, 0⟩
            regClass := 0
            channel := 0
            opRegClass := 0
            opChannel := 0
            channels := []
            maxPeers := 1 } }
    record := fun _ => {} }

-- What such a table takes, there is room for.
theorem fits_of_lone (hmsg : Parsed ies msg) (h : (addEntry {} room lone a freq level ies msg devAddr).isSome) :
    (∀ p, msg.ssid = some p → lengthAt ies p ≤ 32) ∧
      ∀ gi clients, msg.attr .groupInfo = some gi → p2pGroupInfoParse msg.p2pBuf (some gi) = some (.ok clients) →
        RoomFor msg.p2pBuf devAddr clients := by
  obtain ⟨res, h⟩ := Option.isSome_iff_exists.1 h
  rw [addEntry, if_neg fun hfilter => hfilter.1 rfl] at h
  obtain ⟨r, hssid, h⟩ := Option.bind_eq_some_iff.1 h
  obtain ⟨ds, -, h⟩ := Option.bind_eq_some_iff.1 h
  obtain ⟨r', -, h⟩ := Option.bind_eq_some_iff.1 h
  obtain ⟨r'', -, h⟩ := Option.bind_eq_some_iff.1 h
  obtain ⟨t, hclients, -⟩ := Option.map_eq_some_iff.1 h
  refine ⟨(isSome_copySsid hmsg).1 (Option.isSome_of_eq_some hssid), ?_⟩
  intro gi clients hgi hparse
  rw [p2pAddGroupClients, hgi] at hclients
  dsimp only at hclients
  rw [hparse] at hclients
  have halone : Alone (createDevice {} lone.p2p devAddr).1 { addr := devAddr } := ⟨rfl, rfl⟩
  obtain ⟨d, hd, haddr⟩ := (halone.modifyDevice rfl).clear devAddr a (dsFreq freq ds)
  exact hd.roomFor (described_of_parse (hmsg.groupInfo hgi) hparse) haddr (Option.isSome_of_eq_some hclients)

end Entries

-- What a frame may have for the entry of its sender, where it is taken
def Fits (ies : Octets) : Prop :=
  ∀ msg p, p2pParseIes ies {} = some (.ok msg) → p2pDevAddr msg = some p →
    (∀ q, msg.ssid = some q → lengthAt ies q ≤ 32) ∧
      ∀ gi clients, msg.attr .groupInfo = some gi → p2pGroupInfoParse msg.p2pBuf (some gi) = some (.ok clients) →
        RoomFor msg.p2pBuf (getBE 48 (field msg.p2pBuf p 6)) clients

-- All that is copied of the WPS attributes fits, of a client where it has no more than 16 secondary device
-- types. An entry is filled within its arrays, whatever the peer table is, if and only if the SSID has no more
-- than 32 octets and the clients of the group have no more types than that.
theorem records_filled (ies : Octets) :
    (∀ token msg, p2pParseIes ies (fresh token) = some (.ok msg) →
      ∀ probeReq r, (p2pCopyWpsInfo probeReq msg r).isSome) ∧
      (∀ (buf : Octets) (gi : Slice) clients, gi.off + gi.len ≤ buf.length →
        p2pGroupInfoParse buf (some gi) = some (.ok clients) →
          ∀ cli ∈ clients, ∀ r, (p2pCopyClientInfo buf cli r).isSome ↔ cli.numSecDevTypes ≤ 16) ∧
      ((∀ env room t addr freq level, (p2pAddDevice env room t addr freq level ies).isSome) ↔ Fits ies) := by
  refine ⟨?_, ?_, ?_⟩
  · intro token msg hparse probeReq r
    obtain ⟨res, hres, hgood⟩ : Returns (p2pParseIes ies (fresh token)) (Good (Parsed ies)) := returns_p2pParseIes token
    rw [hparse] at hres
    cases hres
    exact returns_iff.1 (returns_p2pCopyWpsInfo (hgood msg rfl) probeReq r)
  · intro buf gi clients hgi hparse cli hcli r
    exact isSome_copyClientInfo (described_of_parse hgi hparse cli hcli)
  · obtain ⟨res, hres, hgood⟩ : Returns (p2pParseIes ies (fresh 0)) (Good (Parsed ies)) := returns_p2pParseIes 0
    constructor
    · intro hall msg p hparse hp
      have hmsg := hgood msg (Option.some.inj (hres.symm.trans hparse))
      have hsome := hall {} (fun _ => true) lone 0 0 0
      rw [p2pAddDevice, hparse, Option.bind_some] at hsome
      dsimp only at hsome
      rw [hp] at hsome
      dsimp only at hsome
      rw [load_eq (hmsg.deviceAddr hp), Option.bind_some] at hsome
      exact fits_of_lone hmsg hsome
    · intro hfits env room t addr freq level
      rw [p2pAddDevice]
      change p2pParseIes ies {} = some res at hres
      rw [hres, Option.bind_some]
      cases res with
      | error ret => rfl
      | ok msg =>
        have hmsg := hgood msg rfl
        dsimp only
        cases hp : p2pDevAddr msg with
        | none => rfl
        | some p =>
          obtain ⟨hssid, hclients⟩ := hfits msg p hres hp
          dsimp only
          rw [load_eq (hmsg.deviceAddr hp), Option.bind_some]
          exact returns_iff.1 (returns_addEntry hmsg hssid hclients)

theorem p2pAddDevice_refines {ies : Octets} {env : Env} {room : Octets → Bool} {t : Peers} {addr : Addr} {freq level : ℤ}
    {msg : P2pMessage} {p : ℕ} {res : Peers × Bool} (hparse : p2pParseIes ies {} = some (.ok msg))
    (hp : p2pDevAddr msg = some p) (h : p2pAddDevice env room t addr freq level ies = some res) :
    (res.1.p2p, res.2) = addDevice env t.p2p addr freq (peerInfo ies msg (getBE 48 (field msg.p2pBuf p 6))) := by
  obtain ⟨r, hr, hgood⟩ : Returns (p2pParseIes ies (fresh 0)) (Good (Parsed ies)) := returns_p2pParseIes 0
  have hmsg := hgood msg (Option.some.inj (hr.symm.trans hparse))
  rw [p2pAddDevice, hparse, Option.bind_some] at h
  dsimp only at h
  rw [hp] at h
  dsimp only at h
  rw [load_eq (hmsg.deviceAddr hp), Option.bind_some] at h
  exact addEntry_p2p hmsg h

def ssidElement (n : ℕ) : Octets := [0, UInt8.ofNat n] ++ List.replicate n 0x61

def groupElement (clients : Octets) : Octets :=
  (p2pFrame [[3, 6, 0, 2, 0, 0, 0, 0, 1] ++ [14, UInt8.ofNat clients.length, 0] ++ clients]).tail

def clientDescriptor (num : ℕ) : Octets :=
  let types := [UInt8.ofNat num] ++ List.replicate (8 * num) 1
  let fields := [2, 0, 0, 0, 0, 2, 2, 0, 0, 0, 0, 3, 0, 0, 0] ++ List.replicate 8 0 ++ types ++ [0x10, 0x11, 0, 0]
  UInt8.ofNat fields.length :: fields

theorem p2pAddDevice_refines_group : ∃ msg p res,
    p2pAddDevice {} (fun _ => true) lone 0 2412 0 (groupElement (clientDescriptor 2)) = some res ∧
      (res.1.p2p.getDevice 0x020000000002).isSome ∧
      (res.1.p2p, res.2) = addDevice {} lone.p2p 0 2412
        (peerInfo (groupElement (clientDescriptor 2)) msg (getBE 48 (field msg.p2pBuf p 6))) := by
  have hsome : ((p2pAddDevice {} (fun _ => true) lone 0 2412 0 (groupElement (clientDescriptor 2))).bind
      fun res => res.1.p2p.getDevice 0x020000000002).isSome = true := by decide +kernel
  have haddr : ((p2pParseIes (groupElement (clientDescriptor 2)) {}).bind
      fun r => r.toOption.bind p2pDevAddr).isSome = true := by
    decide +kernel
  obtain ⟨d, hd⟩ := Option.isSome_iff_exists.1 hsome
  obtain ⟨res, hres, hd⟩ := Option.bind_eq_some_iff.1 hd
  obtain ⟨p, hp⟩ := Option.isSome_iff_exists.1 haddr
  obtain ⟨r, hr, hp⟩ := Option.bind_eq_some_iff.1 hp
  cases r with
  | error ret => cases hp
  | ok msg => exact ⟨msg, p, res, hres, by rw [hd]; rfl, p2pAddDevice_refines hr hp hres⟩

theorem records_overflow :
    (p2pAddDevice {} (fun _ => true) lone 0 2412 0 (ssidElement 32 ++ groupElement (clientDescriptor 16))).isSome = true ∧
      (p2pAddDevice {} (fun _ => true) lone 0 2412 0 (ssidElement 33 ++ groupElement [])).isSome = false ∧
      (p2pAddDevice {} (fun _ => true) lone 0 2412 0 (groupElement (clientDescriptor 17))).isSome = false := by
  refine ⟨?_, ?_, ?_⟩ <;> decide +kernel

end WpaSupplicant.P2p.Pointers

import WpaSupplicant.Bss
import WpaSupplicant.GasQuery

namespace WpaSupplicant.Interworking

open Lib.Octets Bss GasQuery

-- `ANQP_*`, `HS20_STYPE_*` and the like
def anqpQueryList : ℕ := 256
def anqpVenueName : ℕ := 258
def anqpNetworkAuthType : ℕ := 260
def anqpRoamingConsortium : ℕ := 261
def anqpIpAddrTypeAvailability : ℕ := 262
def anqpNaiRealm : ℕ := 263
def anqp3gppCellularNetwork : ℕ := 264
def anqpDomainName : ℕ := 268
def anqpVendorSpecific : ℕ := 56797
def ouiWfa : Octets := [0x50, 0x6f, 0x9a]
def hs20IeVendorType : Octets := [0x50, 0x6f, 0x9a, 0x10]
def hs20AnqpOuiType : UInt8 := 17
def hs20StypeQueryList : UInt8 := 1
def hs20StypeOperatorFriendlyName : UInt8 := 3
def hs20StypeWanMetrics : UInt8 := 4
def hs20StypeConnectionCapability : UInt8 := 5
def hs20StypeNaiHomeRealmQuery : ℕ := 6
def gasInitialReq : UInt8 := 10
def accessNetworkQueryProtocol : UInt8 := 0

-- `WPA_BSS_ANQP_FETCH_TRIED`
def anqpFetchTried : BitVec 32 := 1 <<< 6

-- The callbacks the Interworking code gives to the GAS client
inductive Cb where
  | anqpRespCb
  | interworkingAnqpRespCb
  deriving DecidableEq, Repr

-- `wpa_s->scan_res_handler`
inductive ScanResHandler where
  | interworking
  | other
  deriving DecidableEq, Repr

inductive Output where
  | startingAnqpFetch (bssid : Addr)
  | anqpFetchCompleted
  | selectNetwork
  | anqpInformationReceived (ssid : Octets) (bssid : Addr)
  deriving DecidableEq, Repr

-- The part of `struct wpa_supplicant` the Interworking code uses. `queried` and `offered` are the
-- history of the fetch under way: the entries for which `interworking_next_anqp_fetch` started a
-- query, and those it found eligible.
structure Wpa where
  table : Table := {}
  gas : Gas Cb := {}
  fetchAnqpInProgress : Bool := false
  networkSelect : Bool := false
  autoSelect : Bool := false
  scanResHandler : Option ScanResHandler := none
  assocFreq : ℤ := 0
  queried : List ℕ := []
  offered : List ℕ := []
  out : List Output := []

def Wpa.emit (w : Wpa) (o : Output) : Wpa := { w with out := w.out ++ [o] }

-- What the allocator and the driver answer during an operation: `gas` within the GAS client, and
-- the others where a query is built and started. The copy of an element is asked for by what is
-- left of the response.
structure Env where
  gas : Answers := {}
  req : Answers := {}
  extraAlloc : Bool := true
  bufAlloc : Bool := true
  copyAlloc : ℕ → Bool := fun _ => true

-- `gas_anqp_add_element` up to `gas_anqp_set_element_len`
def anqpElement (infoId : ℕ) (data : Octets) : Octets := toLE 2 infoId ++ toLE 2 data.length ++ data

-- `gas_anqp_build_initial_req` up to `gas_anqp_set_len`
def gasAnqpInitialReq (query : Octets) : Octets :=
  [actionPublic, gasInitialReq, 0, eidAdvProto, 2, 0, accessNetworkQueryProtocol] ++
    toLE 2 query.length ++ query

def anqpBuildReq (alloc : Bool) (infoIds : List ℕ) (extra : Octets) : Option Octets :=
  if alloc then
    some (gasAnqpInitialReq (anqpElement anqpQueryList (infoIds.flatMap (toLE 2)) ++ extra))
  else none

def infoIds : List ℕ :=
  [anqpVenueName, anqpNetworkAuthType, anqpRoamingConsortium, anqpIpAddrTypeAvailability,
    anqpNaiRealm, anqp3gppCellularNetwork, anqpDomainName]

def hs20Query : Octets :=
  anqpElement anqpVendorSpecific (ouiWfa ++ [hs20AnqpOuiType, hs20StypeQueryList, 2,
    hs20StypeOperatorFriendlyName, hs20StypeWanMetrics, hs20StypeConnectionCapability])

def isHs20 (e : Entry) : Bool := (getVendorIe e.ies hs20IeVendorType).isSome

def interworkingAnqpSendReq (env : Env) (w : Wpa) (bss : Entry) : ℤ × Wpa :=
  if isHs20 bss && !env.extraAlloc then (-1, w)
  else
    match anqpBuildReq env.bufAlloc infoIds (if isHs20 bss then hs20Query else []) with
    | none => (-1, w)
    | some buf =>
      let (res, gas) :=
        gasQueryReq env.req w.gas bss.bssid bss.freq buf .interworkingAnqpRespCb
      (if res < 0 then -1 else 0, { w with gas := gas })

-- `IEEE80211_CAP_ESS` and the Interworking bit of the Extended Capabilities
def supportsInterworking (e : Entry) : Bool :=
  e.caps.getLsbD 0 &&
    match getIe e.ies eidExtCapab with
    | none => false
    | some ie => 4 ≤ ie.length && (ie.getD 3 0 &&& 0x80) ≠ 0

def eligible (e : Entry) : Bool := supportsInterworking e && !e.fetched

def tried (e : Entry) : Bool := e.flags.getLsbD 6

-- The loop of `interworking_next_anqp_fetch`
def nextBss (t : Table) : Option Ptr :=
  t.bss.find? fun p => eligible (t.heap p) && !tried (t.heap p)

-- `interworking_select_network` as far as the fetch is concerned; which network is chosen, and
-- what connecting to it does, is up to the configuration and the arbiter.
def interworkingSelectNetwork (w : Wpa) : Wpa := { w with networkSelect := false }.emit .selectNetwork

def offer (w : Wpa) : Wpa :=
  { w with
    offered := w.offered ++ ((w.table.bss.map w.table.heap).filter eligible).map Entry.serial }

def markTried (w : Wpa) (p : Ptr) : Wpa :=
  let e := w.table.heap p
  { w with
    table := w.table.set p { e with flags := e.flags ||| anqpFetchTried }
    queried := w.queried ++ [e.serial] }.emit (.startingAnqpFetch e.bssid)

-- `interworking_next_anqp_fetch`; the result of the request is not looked at.
def interworkingNextAnqpFetch (env : Env) (w : Wpa) : Wpa :=
  if !w.fetchAnqpInProgress then w
  else
    let w := offer w
    match nextBss w.table with
    | some p =>
      let w := markTried w p
      (interworkingAnqpSendReq env w (w.table.heap p)).2
    | none =>
      let w := { w with fetchAnqpInProgress := false }.emit .anqpFetchCompleted
      if w.networkSelect then interworkingSelectNetwork w else w

-- The first half of `interworking_start_fetch_anqp`
def clearTried (t : Table) : Table :=
  t.bss.foldl (fun t p =>
    t.set p { t.heap p with flags := (t.heap p).flags &&& ~~~ anqpFetchTried }) t

def beginFetch (w : Wpa) : Wpa :=
  { w with table := clearTried w.table, fetchAnqpInProgress := true, queried := [], offered := [] }

def interworkingStartFetchAnqp (env : Env) (w : Wpa) : Wpa :=
  interworkingNextAnqpFetch env (beginFetch w)

def interworkingFetchAnqp (env : Env) (w : Wpa) : Wpa :=
  if w.fetchAnqpInProgress || w.networkSelect then w
  else interworkingStartFetchAnqp env { w with networkSelect := false }

def interworkingStopFetchAnqp (w : Wpa) : Wpa :=
  if !w.fetchAnqpInProgress then w else { w with fetchAnqpInProgress := false }

-- `interworking_select`, which requests a scan
def interworkingSelect (w : Wpa) (autoSelect : Bool) : Wpa :=
  { interworkingStopFetchAnqp w with
    networkSelect := true
    autoSelect := autoSelect
    scanResHandler := some .interworking }

-- The end of `_wpa_supplicant_event_scan_results`, once the table has been updated: the handler is
-- called once. `interworking_scan_res_handler` starts a fetch.
def eventScanResults (env : Env) (w : Wpa) : Wpa :=
  match w.scanResHandler with
  | some .interworking => interworkingStartFetchAnqp env { w with scanResHandler := none }
  | _ => { w with scanResHandler := none }

def queryFreq (w : Wpa) (dst : Addr) : ℤ :=
  match wpaBssGetBssid w.table dst with
  | some p => (w.table.heap p).freq
  | none => w.assocFreq

-- What `anqp_send_req` and `hs20_anqp_send_req` have in common
def sendReq (env : Env) (w : Wpa) (dst : Addr) (buf : Option Octets) : ℤ × Wpa :=
  if queryFreq w dst ≤ 0 then (-1, w)
  else
    match buf with
    | none => (-1, w)
    | some buf =>
      let (res, gas) := gasQueryReq env.req w.gas dst (queryFreq w dst) buf .anqpRespCb
      (if res < 0 then -1 else 0, { w with gas := gas })

def anqpSendReq (env : Env) (w : Wpa) (dst : Addr) (infoIds : List ℕ) : ℤ × Wpa :=
  sendReq env w dst (anqpBuildReq env.bufAlloc infoIds [])

def hs20BuildAnqpReq (alloc : Bool) (stypes : BitVec 32) (payload : Octets) : Option Octets :=
  if alloc then
    let body :=
      if stypes = 1 <<< hs20StypeNaiHomeRealmQuery then
        UInt8.ofNat hs20StypeNaiHomeRealmQuery :: payload
      else
        hs20StypeQueryList :: ((List.range 32).filter stypes.getLsbD).map UInt8.ofNat
    some (gasAnqpInitialReq (anqpElement anqpVendorSpecific (ouiWfa ++ hs20AnqpOuiType :: body)))
  else none

def hs20AnqpSendReq (env : Env) (w : Wpa) (dst : Addr) (stypes : BitVec 32) (payload : Octets) :
    ℤ × Wpa :=
  sendReq env w dst (hs20BuildAnqpReq env.bufAlloc stypes payload)

def store (t : Table) (sa : Addr) (put : Anqp → Anqp) : Table :=
  match wpaBssGetBssid t sa with
  | some p => t.set p { t.heap p with anqp := put (t.heap p).anqp }
  | none => t

-- `wpabuf_alloc_copy`
def copy (alloc : Bool) (data : Octets) : Option Octets := if alloc then some data else none

def hs20ParseRxHs20AnqpResp (alloc : Bool) (t : Table) (sa : Addr) (data : Octets) : Table :=
  match data with
  | [] => t
  | subtype :: data =>
    if subtype = hs20StypeOperatorFriendlyName then
      store t sa fun a => { a with operatorFriendlyName := copy alloc data }
    else if subtype = hs20StypeWanMetrics then
      store t sa fun a => { a with wanMetrics := copy alloc data }
    else if subtype = hs20StypeConnectionCapability then
      store t sa fun a => { a with connectionCapability := copy alloc data }
    else t

def interworkingParseRxAnqpResp (alloc : Bool) (t : Table) (sa : Addr) (infoId : ℕ)
    (data : Octets) : Table :=
  if infoId = anqpVenueName then
    store t sa fun a => { a with venueName := copy alloc data }
  else if infoId = anqpNetworkAuthType then
    store t sa fun a => { a with networkAuthType := copy alloc data }
  else if infoId = anqpRoamingConsortium then
    store t sa fun a => { a with roamingConsortium := copy alloc data }
  else if infoId = anqpIpAddrTypeAvailability then
    store t sa fun a => { a with ipAddrTypeAvailability := copy alloc data }
  else if infoId = anqpNaiRealm then
    store t sa fun a => { a with naiRealm := copy alloc data }
  else if infoId = anqp3gppCellularNetwork then
    store t sa fun a => { a with cellular3gpp := copy alloc data }
  else if infoId = anqpDomainName then
    store t sa fun a => { a with domainName := copy alloc data }
  else if infoId = anqpVendorSpecific then
    if data.length < 4 then t
    else if data.take 3 ≠ ouiWfa then t
    else if data.getD 3 0 = hs20AnqpOuiType then
      hs20ParseRxHs20AnqpResp alloc t sa (data.drop 4)
    else t
  else t

-- The loop of `anqp_resp_cb` over the elements of a response; one that does not fit ends it.
def parseResp (copyAlloc : ℕ → Bool) (dst : Addr) : ℕ → Octets → Table → Table
  | 0, _, t => t
  | fuel + 1, resp, t =>
    if resp.length < 4 then t
    else
      let slen := getLE16 resp 2
      if resp.length < 4 + slen then t
      else
        parseResp copyAlloc dst fuel (resp.drop (4 + slen))
          (interworkingParseRxAnqpResp (copyAlloc resp.length) t dst (getLE16 resp 0)
            ((resp.drop 4).take slen))

-- The test of the Advertisement Protocol in `anqp_resp_cb`
def isAnqp (advProto : Octets) : Bool :=
  4 ≤ advProto.length && advProto.getD 0 0 = eidAdvProto && 2 ≤ advProto.getD 1 0 &&
    advProto.getD 3 0 = accessNetworkQueryProtocol

-- `anqp_resp_cb`; `none` where it follows a null pointer, which it does when the BSS of the peer
-- is no longer found after the elements were parsed.
def anqpRespCb (env : Env) (w : Wpa) (c : Callback Cb) : Option Wpa :=
  if c.result ≠ .success then some w
  else
    match c.advProto with
    | none => none
    | some advProto =>
      if !isAnqp advProto then some w
      else
        match c.resp with
        | none => none
        | some resp =>
          let t := parseResp env.copyAlloc c.dst resp.length resp w.table
          match wpaBssGetBssid t c.dst with
          | none => none
          | some p =>
            let e := t.heap p
            some ({ w with table := t.set p { e with fetched := true } }.emit
              (.anqpInformationReceived e.ssid e.bssid))

def interworkingAnqpRespCb (env : Env) (w : Wpa) (c : Callback Cb) : Option Wpa :=
  (anqpRespCb env w c).map (interworkingNextAnqpFetch env)

def runCallback (env : Env) (w : Wpa) : Option (Callback Cb) → Option Wpa
  | none => some w
  | some c =>
    match c.cb with
    | .anqpRespCb => anqpRespCb env w c
    | .interworkingAnqpRespCb => interworkingAnqpRespCb env w c

inductive GasEvent where
  | rx (sa : Addr) (data : Octets)
  | timeout (q : Query Cb)
  | comebackTimeout (q : Query Cb)
  | cancel (dst : Addr) (dialogToken : UInt8)

def gasEvent (a : Answers) (g : Gas Cb) : GasEvent → Gas Cb × Option (Callback Cb)
  | .rx sa data => (gasQueryRx a g sa data).2
  | .timeout q => gasQueryTimeout g q
  | .comebackTimeout q => gasQueryTxComebackTimeout a g q
  | .cancel dst dialogToken => gasQueryCancel g dst dialogToken

inductive Op where
  | bss (op : Bss.Op)
  | gas (env : Env) (ev : GasEvent)
  | fetchAnqp (env : Env)
  | stopFetchAnqp
  | select (autoSelect : Bool)
  | scanResults (env : Env)
  | setScanResHandler (handler : Option ScanResHandler) (hother : handler ≠ some .interworking)
  | assoc (freq : ℤ)
  | anqpSendReq (env : Env) (dst : Addr) (infoIds : List ℕ)
  | hs20AnqpSendReq (env : Env) (dst : Addr) (stypes : BitVec 32) (payload : Octets)

def exec (w : Wpa) : Op → Option Wpa
  | .bss op => some { w with table := Bss.exec w.table op }
  | .gas env ev =>
    let (gas, cb) := gasEvent env.gas w.gas ev
    runCallback env { w with gas := gas } cb
  | .fetchAnqp env => some (interworkingFetchAnqp env w)
  | .stopFetchAnqp => some (interworkingStopFetchAnqp w)
  | .select autoSelect => some (interworkingSelect w autoSelect)
  | .scanResults env => some (eventScanResults env w)
  | .setScanResHandler handler _ => some { w with scanResHandler := handler }
  | .assoc freq => some { w with assocFreq := freq }
  | .anqpSendReq env dst infoIds => some (anqpSendReq env w dst infoIds).2
  | .hs20AnqpSendReq env dst stypes payload => some (hs20AnqpSendReq env w dst stypes payload).2

-- What the surroundings promise: to the BSS table as before, and that a handler is called only
-- for a timer that is armed.
def Promised (w : Wpa) : Op → Prop
  | .bss op => Bss.Promised w.table op
  | .gas _ (.timeout q) => q ∈ w.gas.pending ∧ q.timeoutArmed = true
  | .gas _ (.comebackTimeout q) => q ∈ w.gas.pending ∧ q.comebackArmed = true
  | _ => True

def Wpa.Initial (w : Wpa) : Prop :=
  w.table.Initial ∧ w.gas = {} ∧ w.fetchAnqpInProgress = false ∧ w.queried = [] ∧ w.offered = []

-- The states that can be reached by operations that meet a condition on the state they find
inductive Reach (ok : Wpa → Op → Prop) (start : Wpa) : Wpa → Prop where
  | init : Reach ok start start
  | step {w w' : Wpa} (op : Op) (hw : Reach ok start w) (hpromised : Promised w op) (hok : ok w op)
      (hexec : exec w op = some w') : Reach ok start w'

end WpaSupplicant.Interworking

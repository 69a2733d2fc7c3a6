import WpaSupplicant.Common
import WpaSupplicant.Lib.DlList

namespace WpaSupplicant.Bss

open Lib.DlList Lib.Octets

abbrev Ptr := ℕ

-- `WLAN_EID_*`, `WPA_IE_VENDOR_TYPE` and the like
def eidSsid : UInt8 := 0
def eidExtCapab : UInt8 := 127
def eidVendorSpecific : UInt8 := 221
def p2pIeVendorType : Octets := [0x50, 0x6f, 0x9a, 0x09]

def p2pWildcardSsid : Octets := [0x44, 0x49, 0x52, 0x45, 0x43, 0x54, 0x2d]

-- The walk over information elements that `wpa_bss_get_ie`, `wpa_scan_get_ie` and the lookups of
-- vendor elements share: the body of the first element that is looked for. An element that does
-- not fit ends the walk.
def findElem (want : UInt8 → Octets → Bool) : ℕ → Octets → Option Octets
  | fuel + 1, id :: len :: rest =>
    if rest.length < len.toNat then none
    else if want id (rest.take len.toNat) then some (rest.take len.toNat)
    else findElem want fuel (rest.drop len.toNat)
  | _, _ => none

-- `wpa_scan_get_ie` and `wpa_bss_get_ie`
def getIe (ies : Octets) (ie : UInt8) : Option Octets :=
  findElem (fun id _ => id = ie) ies.length ies

-- `wpa_scan_get_vendor_ie` and `wpa_bss_get_vendor_ie`
def getVendorIe (ies : Octets) (vendorType : Octets) : Option Octets :=
  findElem (fun id body => id = eidVendorSpecific && 4 ≤ body.length && body.take 4 = vendorType)
    ies.length ies

structure Anqp where
  venueName : Option Octets := none
  networkAuthType : Option Octets := none
  roamingConsortium : Option Octets := none
  ipAddrTypeAvailability : Option Octets := none
  naiRealm : Option Octets := none
  cellular3gpp : Option Octets := none
  domainName : Option Octets := none
  operatorFriendlyName : Option Octets := none
  wanMetrics : Option Octets := none
  connectionCapability : Option Octets := none
  deriving DecidableEq, Repr

-- `struct wpa_bss`. `serial` counts the entries ever added; `id` is that number in an
-- `unsigned int`.
structure Entry where
  serial : ℕ
  scanMissCount : ℕ := 0
  lastUpdateIdx : ℕ
  flags : BitVec 32 := 0
  bssid : Addr := 0
  ssid : Octets := []
  freq : ℤ := 0
  beaconInt : BitVec 16 := 0
  caps : BitVec 16 := 0
  qual : ℤ := 0
  noise : ℤ := 0
  level : ℤ := 0
  tsf : BitVec 64 := 0
  lastUpdate : OsTime := ⟨0, 0⟩
  fetched : Bool := false
  anqp : Anqp := {}
  ies : Octets := []
  beaconIes : Octets := []
  deriving DecidableEq, Repr

def Entry.id (e : Entry) : ℕ := e.serial % 2 ^ 32

-- `struct wpa_scan_res`
structure ScanRes where
  flags : BitVec 32 := 0
  bssid : Addr
  freq : ℤ := 2412
  beaconInt : BitVec 16 := 100
  caps : BitVec 16 := 1
  qual : ℤ := 0
  noise : ℤ := 0
  level : ℤ := 0
  tsf : BitVec 64 := 0
  age : ℕ := 0
  ies : Octets
  beaconIes : Octets := []
  deriving DecidableEq, Repr

-- `struct scan_info`; an SSID of length 0 matches any
structure ScanInfo where
  freqs : List ℤ := []
  ssids : List Octets := []
  deriving DecidableEq, Repr

-- `wpas_notify_bss_added` and `wpas_notify_bss_removed`. The flag of a removal records, for the
-- history of a run, whether `wpa_bss_in_use` held.
inductive Output where
  | bssAdded (bssid : Addr) (serial : ℕ)
  | bssRemoved (bssid : Addr) (serial : ℕ) (inUse : Bool)
  deriving DecidableEq, Repr

-- The BSS table of `struct wpa_supplicant`: the blocks, the two lists that run through them, and
-- what the table functions read besides. The counters are not reduced; the code reads them
-- modulo 2^32.
structure Table where
  heap : Ptr → Entry := fun _ => { serial := 0, lastUpdateIdx := 0 }
  bss : List Ptr := []
  bssId : List Ptr := []
  numBss : ℕ := 0
  bssUpdateIdx : ℕ := 0
  bssNextId : ℕ := 0
  currentBss : Option Ptr := none
  bssid : Addr := 0
  pendingBssid : Addr := 0
  bssidFilter : Option (List Addr) := none
  ssids : List (Option Octets) := []
  bssMaxCount : ℕ := 200
  bssExpirationScanCount : ℕ := 2
  out : List Output := []

namespace Table

def set (t : Table) (p : Ptr) (e : Entry) : Table := { t with heap := Function.update t.heap p e }

def emit (t : Table) (o : Output) : Table := { t with out := t.out ++ [o] }

end Table

def wpaBssInUse (t : Table) (p : Ptr) : Bool :=
  t.currentBss = some p || (t.heap p).bssid = t.bssid || (t.heap p).bssid = t.pendingBssid

def wpaBssRemove (t : Table) (p : Ptr) : Table :=
  { t with
    bss := dlListDel p t.bss
    bssId := dlListDel p t.bssId
    numBss := t.numBss - 1 }.emit
      (.bssRemoved (t.heap p).bssid (t.heap p).serial (wpaBssInUse t p))

def wpaSupplicantFilterBssidMatch (t : Table) (bssid : Addr) : Bool :=
  match t.bssidFilter with
  | none => true
  | some filter => filter.contains bssid

def filterScanRes (t : Table) (res : List ScanRes) : List ScanRes :=
  match t.bssidFilter with
  | none => res
  | some _ => res.filter fun r => wpaSupplicantFilterBssidMatch t r.bssid

def wpaBssGet (t : Table) (bssid : Addr) (ssid : Octets) : Option Ptr :=
  if wpaSupplicantFilterBssidMatch t bssid then
    t.bss.find? fun p => (t.heap p).bssid = bssid && (t.heap p).ssid = ssid
  else none

-- `wpa_bss_get_bssid`: the BSS of the address that was updated last
def wpaBssGetBssid (t : Table) (bssid : Addr) : Option Ptr :=
  if wpaSupplicantFilterBssidMatch t bssid then
    t.bss.reverse.find? fun p => (t.heap p).bssid = bssid
  else none

-- The time of a scan result: `age` milliseconds before now
def resTime (now : OsTime) (age : ℕ) : OsTime :=
  let sec := now.sec - (age / 1000 : ℕ)
  let usec : ℤ := (age % 1000 * 1000 : ℕ)
  if now.usec < usec then ⟨sec - 1, now.usec + 1000000 - usec⟩ else ⟨sec, now.usec - usec⟩

-- `wpa_bss_copy_res`; all the flags are those of the scan result afterwards.
def wpaBssCopyRes (now : OsTime) (dst : Entry) (src : ScanRes) : Entry :=
  { dst with
    flags := src.flags
    bssid := src.bssid
    freq := src.freq
    beaconInt := src.beaconInt
    caps := src.caps
    qual := src.qual
    noise := src.noise
    level := src.level
    tsf := src.tsf
    lastUpdate := resTime now src.age }

def wpaBssKnown (t : Table) (p : Ptr) : Bool :=
  t.ssids.any fun ssid => ssid ≠ some [] && ssid = some (t.heap p).ssid

-- The entry `wpa_bss_remove_oldest` removes: the oldest that matches no configured network, else
-- the oldest of all
def oldest (t : Table) : Option Ptr :=
  match t.bss.find? fun p => !wpaBssKnown t p with
  | some p => some p
  | none => t.bss.head?

def wpaBssRemoveOldest (t : Table) : Table :=
  match oldest t with
  | some p => wpaBssRemove t p
  | none => t

-- The new entry of `wpa_bss_add`, in the block at `p` and at the end of both lists
def linkBss (t : Table) (p : Ptr) (now : OsTime) (ssid : Octets) (res : ScanRes) : Table :=
  let entry : Entry := { serial := t.bssNextId, lastUpdateIdx := t.bssUpdateIdx % 2 ^ 32 }
  let entry :=
    { wpaBssCopyRes now entry res with ssid := ssid, ies := res.ies, beaconIes := res.beaconIes }
  { t.set p entry with
    bssNextId := t.bssNextId + 1
    bss := dlListAddTail t.bss p
    bssId := dlListAddTail t.bssId p
    numBss := t.numBss + 1 }.emit (.bssAdded res.bssid t.bssNextId)

-- `wpa_bss_add`; `alloc` is what `os_zalloc` returns.
def wpaBssAdd (t : Table) (alloc : Option Ptr) (now : OsTime) (ssid : Octets) (res : ScanRes) :
    Table :=
  match alloc with
  | none => t
  | some p =>
    let t := linkBss t p now ssid res
    if t.bssMaxCount < t.numBss then wpaBssRemoveOldest t else t

def fits (e : Entry) (res : ScanRes) : Bool :=
  res.ies.length + res.beaconIes.length ≤ e.ies.length + e.beaconIes.length

def refreshed (t : Table) (p : Ptr) (now : OsTime) (res : ScanRes) : Entry :=
  wpaBssCopyRes now
    { t.heap p with scanMissCount := 0, lastUpdateIdx := t.bssUpdateIdx % 2 ^ 32 } res

-- `wpa_bss_update`; `realloc` is what `os_realloc` returns where it is called, and the block may
-- be another one then. What points to the entry from outside the two lists is not changed.
def wpaBssUpdate (t : Table) (p : Ptr) (realloc : Option Ptr) (now : OsTime) (res : ScanRes) :
    Table :=
  let e := refreshed t p now res
  let withElems := { e with ies := res.ies, beaconIes := res.beaconIes }
  let t := { t.set p e with bss := dlListDel p t.bss }
  if fits e res then
    { t.set p withElems with bss := dlListAddTail t.bss p }
  else
    let prev := prevOf p t.bssId
    let t := { t with bssId := dlListDel p t.bssId }
    match realloc with
    | some p' =>
      { t.set p' withElems with
        bssId := dlListAdd prev p' t.bssId
        bss := dlListAddTail t.bss p' }
    | none =>
      { t with
        bssId := dlListAdd prev p t.bssId
        bss := dlListAddTail t.bss p }

def wpaBssUpdateStart (t : Table) : Table := { t with bssUpdateIdx := t.bssUpdateIdx + 1 }

-- The SSID under which a scan result is kept; `none` for a result that is skipped
def resSsid (res : ScanRes) : Option Octets :=
  match getIe res.ies eidSsid with
  | none => none
  | some ssid =>
    if 32 < ssid.length then none
    else if (getVendorIe res.ies p2pIeVendorType).isSome ∧ ssid = p2pWildcardSsid then none
    else some ssid

-- `wpa_bss_update_scan_res`; `alloc` is what the allocator returns where it is called.
def wpaBssUpdateScanRes (t : Table) (alloc : Option Ptr) (now : OsTime) (res : ScanRes) : Table :=
  match resSsid res with
  | none => t
  | some ssid =>
    match wpaBssGet t res.bssid ssid with
    | none => wpaBssAdd t alloc now ssid res
    | some p => wpaBssUpdate t p alloc now res

def wpaBssIncludedInScan (e : Entry) : Option ScanInfo → Bool
  | none => true
  | some info =>
    (info.freqs.isEmpty || info.freqs.contains e.freq) &&
      (info.ssids.isEmpty || info.ssids.any fun s => s = [] || s = e.ssid)

-- One round of the loop of `wpa_bss_update_end`
def updateEndRound (info : Option ScanInfo) (t : Table) (p : Ptr) : Table :=
  let e := t.heap p
  if wpaBssInUse t p then t
  else if !wpaBssIncludedInScan e info then t
  else
    let missed :=
      if e.lastUpdateIdx < t.bssUpdateIdx % 2 ^ 32 then (e.scanMissCount + 1) % 2 ^ 32
      else e.scanMissCount
    let t := t.set p { e with scanMissCount := missed }
    if t.bssExpirationScanCount ≤ missed then wpaBssRemove t p else t

def wpaBssUpdateEnd (t : Table) (info : Option ScanInfo) (newScan : Bool) : Table :=
  if newScan then t.bss.foldl (updateEndRound info) t else t

-- The loop of `wpa_bss_flush_by_age` from an entry on
def flushOlder (limit : OsTime) : List Ptr → Table → Table
  | [], t => t
  | p :: next, t =>
    if wpaBssInUse t p then flushOlder limit next t
    else if osTimeBefore (t.heap p).lastUpdate limit then
      flushOlder limit next (wpaBssRemove t p)
    else t

def wpaBssFlushByAge (t : Table) (now : OsTime) (age : ℤ) : Table :=
  flushOlder ⟨now.sec - age, now.usec⟩ t.bss t

-- One round of the loop of `wpa_bss_flush`
def flushRound (t : Table) (p : Ptr) : Table := if wpaBssInUse t p then t else wpaBssRemove t p

def wpaBssFlush (t : Table) : Table := t.bss.foldl flushRound t

-- What happens to the table. A connection attempt, an association or its end changes the BSS in
-- use, and the control interface may change the BSSID filter and the configured networks.
inductive Op where
  | updateStart
  | updateScanRes (alloc : Option Ptr) (now : OsTime) (res : ScanRes)
  | updateEnd (info : Option ScanInfo) (newScan : Bool)
  | flush
  | flushByAge (now : OsTime) (age : ℤ)
  | use (current : Option Ptr) (bssid pendingBssid : Addr)
  | setFilter (filter : Option (List Addr))
  | setNetworks (ssids : List (Option Octets))
  deriving DecidableEq, Repr

def exec (t : Table) : Op → Table
  | .updateStart => wpaBssUpdateStart t
  | .updateScanRes alloc now res => wpaBssUpdateScanRes t alloc now res
  | .updateEnd info newScan => wpaBssUpdateEnd t info newScan
  | .flush => wpaBssFlush t
  | .flushByAge now age => wpaBssFlushByAge t now age
  | .use current bssid pendingBssid =>
    { t with currentBss := current, bssid := bssid, pendingBssid := pendingBssid }
  | .setFilter filter => { t with bssidFilter := filter }
  | .setNetworks ssids => { t with ssids := ssids }

-- What the surroundings promise: the allocator returns no block that is in use, where `os_realloc`
-- may keep the block of the entry; scan results have passed `filter_scan_res`; and a BSS that
-- becomes the current one is in the table.
def Promised (t : Table) : Op → Prop
  | .updateScanRes alloc _ res =>
    wpaSupplicantFilterBssidMatch t res.bssid = true ∧
      ∀ p ∈ alloc, p ∈ t.bss → ∃ ssid ∈ resSsid res, wpaBssGet t res.bssid ssid = some p
  | .use current _ _ => ∀ p ∈ current, p ∈ t.bss
  | _ => True

instance (t : Table) : DecidablePred (Promised t)
  | .updateScanRes alloc _ res =>
    inferInstanceAs (Decidable (wpaSupplicantFilterBssidMatch t res.bssid = true ∧
      ∀ p ∈ alloc, p ∈ t.bss → ∃ ssid ∈ resSsid res, wpaBssGet t res.bssid ssid = some p))
  | .use current _ _ => inferInstanceAs (Decidable (∀ p ∈ current, p ∈ t.bss))
  | .updateStart | .updateEnd .. | .flush | .flushByAge .. | .setFilter _ | .setNetworks _ =>
    inferInstanceAs (Decidable True)

inductive Reach (ok : Table → Op → Prop) (start : Table) : Table → Prop where
  | init : Reach ok start start
  | step {t : Table} (op : Op) (ht : Reach ok start t) (hpromised : Promised t op) (hok : ok t op) :
      Reach ok start (exec t op)

-- The table after `wpa_bss_init`, under any configuration
def Table.Initial (t : Table) : Prop :=
  t.bss = [] ∧ t.bssId = [] ∧ t.numBss = 0 ∧ t.bssUpdateIdx = 0 ∧ t.bssNextId = 0 ∧
    t.currentBss = none ∧ t.out = []

end WpaSupplicant.Bss

import WpaSupplicant.Lib.HashChain
import WpaSupplicant.Lib.SortedList
import WpaSupplicant.RsnIe

namespace WpaSupplicant.Ap.Pmksa

open Lib.HashChain Lib.SortedList

-- The address of an entry. An entry gets an address that no other entry had before.
abbrev Ptr := ℕ

-- `pmksa_cache_max_entries`, `dot11RSNAConfigPMKLifetime` and `PMK_LEN`
def pmksaCacheMaxEntries : ℤ := 1024
def dot11RSNAConfigPMKLifetime : ℤ := 43200
def pmkLen : ℕ := 32

-- `struct rsn_pmksa_cache_entry`, with its address; `pmk` holds `pmk_len` octets. What an entry
-- keeps for the EAPOL state machine is left out.
structure Entry where
  ptr : Ptr
  pmkid : BitVec 128
  pmk : Octets
  expiration : ℤ
  akmp : KeyMgmt
  spa : Addr
  opportunistic : Bool := false
  deriving DecidableEq, Repr

-- `PMKID_HASH`: seven bits of the first octet
def pmkidHash (pmkid : BitVec 128) : BitVec 7 := pmkid.extractLsb' 120 7

def Entry.hash (e : Entry) : BitVec 7 := pmkidHash e.pmkid

-- `struct rsn_pmksa_cache`. The timer holds the second at which it is due.
structure Cache where
  pmkid : BitVec 7 → List Entry := fun _ => []
  pmksa : List Entry := []
  pmksaCount : ℤ := 0
  expireTimer : Option ℤ := none

-- What `struct wpa_state_machine` takes from the WPA/RSN IE of its station
structure Sm where
  wpaKeyMgmt : KeyMgmt := .unset
  pairwise : Option Cipher := none
  wpa : Option Proto := none
  mgmtFrameProt : Bool := false
  pmksa : Option Ptr := none
  wpaIe : Octets := []
  deriving DecidableEq, Repr

-- `struct wpa_authenticator`, with the state machines of its stations
structure Auth where
  addr : Addr
  conf : WpaAuthConfig
  okc : Bool := false
  cache : Cache := {}
  sms : Addr → Option Sm := fun _ => none

variable (now : ℤ)

def wpaAuthPmksaClearCb (entry : Ptr) (sm : Sm) : Sm :=
  if sm.pmksa = some entry then { sm with pmksa := none } else sm

def wpaAuthPmksaFreeCb (a : Auth) (entry : Ptr) : Auth :=
  { a with sms := fun addr => (a.sms addr).map (wpaAuthPmksaClearCb entry) }

def pmksaCacheFreeEntry (a : Auth) (entry : Entry) : Auth :=
  let a := wpaAuthPmksaFreeCb
    { a with cache := { a.cache with pmksaCount := a.cache.pmksaCount - 1 } } entry.ptr
  { a with
    cache := { a.cache with
      pmkid := eraseChain a.cache.pmkid entry.hash fun pos => pos.ptr = entry.ptr
      pmksa := a.cache.pmksa.eraseP fun pos => pos.ptr = entry.ptr } }

-- `pmksa_cache_set_expiration`; the seconds are kept in an `int`.
def pmksaCacheSetExpiration (c : Cache) : Cache :=
  match c.pmksa with
  | [] => { c with expireTimer := none }
  | first :: _ =>
    { c with expireTimer := some (now + max 0 ((first.expiration - now).bmod (2 ^ 32)) + 1) }

-- The loop of `pmksa_cache_expire`, which takes the first entry out of the list before it frees it
def expireEntries : List Entry → Auth → Auth
  | [], a => a
  | entry :: next, a =>
    if entry.expiration ≤ now then
      expireEntries next
        (pmksaCacheFreeEntry { a with cache := { a.cache with pmksa := next } } entry)
    else a

def pmksaCacheExpire (a : Auth) : Auth :=
  let a := expireEntries now a.cache.pmksa a
  { a with cache := pmksaCacheSetExpiration now a.cache }

-- `pmksa_cache_link_entry`: the list is ordered by expiration time. No timer is set here.
def pmksaCacheLinkEntry (c : Cache) (entry : Entry) : Cache :=
  { c with
    pmksa := insertBy Entry.expiration entry c.pmksa
    pmkid := insertChain Entry.hash c.pmkid entry
    pmksaCount := c.pmksaCount + 1 }

-- The test of an entry in `pmksa_cache_auth_get`
def Entry.isFor (spa : Option Addr) (pmkid : Option (BitVec 128)) (e : Entry) : Bool :=
  (spa.isNone || spa = some e.spa) && (pmkid.isNone || pmkid = some e.pmkid)

def pmksaCacheAuthGet (c : Cache) (spa : Option Addr) (pmkid : Option (BitVec 128)) :
    Option Entry :=
  match pmkid with
  | some id => (c.pmkid (pmkidHash id)).find? (Entry.isFor spa pmkid)
  | none => c.pmksa.find? (Entry.isFor spa pmkid)

-- The entry of `pmksa_cache_auth_add`, at a new address
def newEntry (cr : Crypto) (ptr : Ptr) (pmk : Octets) (aa spa : Addr) (sessionTimeout : ℤ)
    (akmp : KeyMgmt) : Entry where
  ptr := ptr
  pmkid := cr.rsnPmkid pmk aa spa akmp.sha256
  pmk := pmk
  expiration := now + if 0 < sessionTimeout then sessionTimeout else dot11RSNAConfigPMKLifetime
  akmp := akmp
  spa := spa

def replaceOld (a : Auth) (spa : Addr) : Auth :=
  match pmksaCacheAuthGet a.cache (some spa) none with
  | some pos => pmksaCacheFreeEntry a pos
  | none => a

def makeRoom (a : Auth) : Auth :=
  match a.cache.pmksa with
  | [] => a
  | oldest :: _ =>
    if pmksaCacheMaxEntries ≤ a.cache.pmksaCount then pmksaCacheFreeEntry a oldest else a

-- `pmksa_cache_auth_add`; `alloc` is the address that the allocator returns.
def pmksaCacheAuthAdd (cr : Crypto) (a : Auth) (alloc : Option Ptr) (pmk : Octets) (aa spa : Addr)
    (sessionTimeout : ℤ) (akmp : KeyMgmt) : Auth :=
  if pmkLen < pmk.length then a
  else
    match alloc with
    | none => a
    | some ptr =>
      let entry := newEntry now cr ptr pmk aa spa sessionTimeout akmp
      let a := makeRoom (replaceOld a spa)
      { a with cache := pmksaCacheLinkEntry a.cache entry }

-- The entry of `pmksa_cache_add_okc`
def okcEntry (ptr : Ptr) (old : Entry) (pmkid : BitVec 128) : Entry :=
  { old with ptr := ptr, pmkid := pmkid, opportunistic := true }

def pmksaCacheAddOkc (a : Auth) (alloc : Option Ptr) (old : Entry) (pmkid : BitVec 128) :
    Auth × Option Ptr :=
  match alloc with
  | none => (a, none)
  | some ptr =>
    ({ a with cache := pmksaCacheLinkEntry a.cache (okcEntry ptr old pmkid) }, some ptr)

-- `pmksa_cache_get_okc`; `none` when the loop does not end: an entry of another station is never
-- passed over.
def pmksaCacheGetOkc (cr : Crypto) (aa spa : Addr) (pmkid : BitVec 128) :
    List Entry → Option (Option Entry)
  | [] => some none
  | entry :: next =>
    if entry.spa ≠ spa then none
    else if cr.rsnPmkid entry.pmk aa spa entry.akmp.sha256 = pmkid then some (some entry)
    else pmksaCacheGetOkc cr aa spa pmkid next

-- `wpa_auth_for_each_auth` with `wpa_auth_okc_iter`
def okcForEachAuth (cr : Crypto) (aa spa : Addr) (pmkid : BitVec 128) :
    List Cache → Option (Option Entry)
  | [] => some none
  | c :: next =>
    match pmksaCacheGetOkc cr aa spa pmkid c.pmksa with
    | none => none
    | some (some entry) => some (some entry)
    | some none => okcForEachAuth cr aa spa pmkid next

end WpaSupplicant.Ap.Pmksa

import WpaSupplicant.Common
import WpaSupplicant.Lib.SortedList

namespace WpaSupplicant.PmksaCache

open Lib.SortedList

-- The address of a block; 0 is `NULL`
abbrev Ptr := ℕ

-- `pmksa_cache_max_entries` and `PMK_LEN`
def pmksaCacheMaxEntries : ℤ := 32
def pmkLen : ℕ := 32

-- `struct rsn_pmksa_cache_entry`, with the address of its block; `pmk` holds `pmk_len` octets.
structure Entry where
  ptr : Ptr
  pmkid : BitVec 128
  pmk : Octets
  expiration : ℤ
  akmp : KeyMgmt
  aa : Addr
  reauthTime : ℤ
  networkCtx : Ptr
  opportunistic : Bool := false
  deriving DecidableEq, Repr

inductive Output where
  | addPmkid (aa : Addr) (pmkid : BitVec 128)
  | removePmkid (aa : Addr) (pmkid : BitVec 128)
  | deauthenticate
  | requestReauth
  deriving DecidableEq, Repr

-- `struct rsn_pmksa_cache`, with what it uses of `struct wpa_sm`. The timers hold the seconds
-- they were armed with, at `timersSet`.
structure Cache where
  pmksa : List Entry := []
  pmksaCount : ℤ := 0
  curPmksa : Option Ptr := none
  pmk : Octets := []
  ownAddr : Addr := 0
  bssid : Addr := 0
  dot11RSNAConfigPMKLifetime : ℕ := 43200
  dot11RSNAConfigPMKReauthThreshold : ℕ := 70
  timersSet : ℤ := 0
  expireTimer : Option ℤ := none
  reauthTimer : Option ℤ := none
  out : List Output := []
  deriving DecidableEq, Repr

def Cache.emit (c : Cache) (o : Output) : Cache := { c with out := c.out ++ [o] }

def wpaSmPmksaFreeCb (c : Cache) (entry : Entry) (replace : Bool) : Cache :=
  if c.curPmksa = some entry.ptr ∨ c.pmk = entry.pmk then
    let c := { c with curPmksa := none }
    -- a new entry is being added: no need to deauthenticate
    if replace then c
    else { c with pmk := List.replicate c.pmk.length 0 }.emit .deauthenticate
  else c

def pmksaCacheFreeEntry (c : Cache) (entry : Entry) (replace : Bool) : Cache :=
  let c := c.emit (.removePmkid entry.aa entry.pmkid)
  wpaSmPmksaFreeCb { c with pmksaCount := c.pmksaCount - 1 } entry replace

def pmksaCacheGet (c : Cache) (aa : Option Addr) (pmkid : Option (BitVec 128)) : Option Entry :=
  c.pmksa.find? fun e => (aa.isNone || aa = some e.aa) && (pmkid.isNone || pmkid = some e.pmkid)

-- The seconds left, kept in an `int`
def secondsUntil (time now : ℤ) : ℤ := max 0 ((time - now).bmod (2 ^ 32))

-- `pmksa_cache_set_expiration`; the timer for reauthentication takes its time from the first
-- entry, whichever entry is the current one.
def pmksaCacheSetExpiration (now : ℤ) (c : Cache) : Cache :=
  match c.pmksa with
  | [] => { c with expireTimer := none, reauthTimer := none }
  | first :: _ =>
    let current := c.curPmksa.isSome || (pmksaCacheGet c (some c.bssid) none).isSome
    { c with
      timersSet := now
      expireTimer := some (secondsUntil first.expiration now + 1)
      reauthTimer := if current then some (secondsUntil first.reauthTime now) else none }

def expireEntries (now : ℤ) : List Entry → Cache → Cache
  | [], c => c
  | entry :: next, c =>
    if entry.expiration ≤ now then
      expireEntries now next (pmksaCacheFreeEntry { c with pmksa := next } entry false)
    else c

def pmksaCacheExpire (now : ℤ) (c : Cache) : Cache :=
  pmksaCacheSetExpiration now (expireEntries now c.pmksa c)

def pmksaCacheReauth (c : Cache) : Cache := { c with curPmksa := none }.emit .requestReauth

def inNetwork (networkCtx : Ptr) (e : Entry) : Bool :=
  e.networkCtx = networkCtx || networkCtx = 0

-- The walk of `pmksa_cache_flush`: `kept` is the list up to `prev`.
def flushEntries (networkCtx : Ptr) : List Entry → List Entry → Cache → Cache
  | _, [], c => c
  | kept, entry :: next, c =>
    if inNetwork networkCtx entry then
      flushEntries networkCtx kept next
        (pmksaCacheFreeEntry { c with pmksa := kept ++ next } entry false)
    else flushEntries networkCtx (kept ++ [entry]) next c

def pmksaCacheFlush (now : ℤ) (c : Cache) (networkCtx : Ptr) : Cache :=
  let removed := c.pmksa.any (inNetwork networkCtx)
  let c := flushEntries networkCtx [] c.pmksa c
  if removed then pmksaCacheSetExpiration now c else c

-- The replacement of the entry for the same Authenticator in `pmksa_cache_add`; other entries
-- of the network may be based on the old PMK.
def replaceEntry (now : ℤ) (c : Cache) (pos : Entry) (networkCtx : Ptr) : Cache :=
  let c := { c with pmksa := c.pmksa.eraseP fun e => e.aa = pos.aa }
  let c := if c.curPmksa = some pos.ptr then { c with curPmksa := none } else c
  pmksaCacheFlush now (pmksaCacheFreeEntry c pos true) networkCtx

-- The removal of the oldest entry in `pmksa_cache_add`
def makeRoom (c : Cache) : Cache :=
  match c.pmksa with
  | [] => c
  | pos :: next =>
    if pmksaCacheMaxEntries ≤ c.pmksaCount then
      pmksaCacheFreeEntry { c with pmksa := next } pos false
    else c

-- The insertion of the new entry in `pmksa_cache_add`, ordered by expiration time
def linkEntry (now : ℤ) (c : Cache) (entry : Entry) : Cache :=
  let first := c.pmksa.head?.all fun pos => entry.expiration < pos.expiration
  let c := { c with pmksa := insertBy Entry.expiration entry c.pmksa }
  let c := if first then pmksaCacheSetExpiration now c else c
  { c with pmksaCount := c.pmksaCount + 1 }.emit (.addPmkid entry.aa entry.pmkid)

-- The entry `pmksa_cache_add` builds in the block at `ptr`
def newEntry (cr : Crypto) (c : Cache) (ptr : Ptr) (now : ℤ) (pmk : Octets) (aa spa : Addr)
    (networkCtx : Ptr) (akmp : KeyMgmt) : Entry where
  ptr := ptr
  pmkid := cr.rsnPmkid pmk aa spa akmp.sha256
  pmk := pmk
  expiration := now + c.dot11RSNAConfigPMKLifetime
  akmp := akmp
  aa := aa
  reauthTime := now + (c.dot11RSNAConfigPMKLifetime * c.dot11RSNAConfigPMKReauthThreshold %
    2 ^ 32 / 100 : ℕ)
  networkCtx := networkCtx

-- `pmksa_cache_add`; `alloc` is what `os_zalloc` returns. The result is the address of the
-- entry, or `NULL`.
def pmksaCacheAdd (cr : Crypto) (c : Cache) (alloc : Option Ptr) (now : ℤ) (pmk : Octets)
    (aa spa : Addr) (networkCtx : Ptr) (akmp : KeyMgmt) : Option Ptr × Cache :=
  if pmkLen < pmk.length then (none, c)
  else
    match alloc with
    | none => (none, c)
    | some ptr =>
      let entry := newEntry cr c ptr now pmk aa spa networkCtx akmp
      match c.pmksa.find? fun e => e.aa = aa with
      | some pos =>
        if pos.pmk = pmk ∧ pos.pmkid = entry.pmkid then (some pos.ptr, c)
        else (some ptr, linkEntry now (makeRoom (replaceEntry now c pos networkCtx)) entry)
      | none => (some ptr, linkEntry now (makeRoom c) entry)

-- The assignments of `pmksa_cache_clone_entry` to the entry at `ptr`
def markOpportunistic (c : Cache) (ptr : Ptr) (expiration : ℤ) : Cache :=
  { c with pmksa := c.pmksa.map fun e =>
      if e.ptr = ptr then { e with expiration := expiration, opportunistic := true } else e }

-- `pmksa_cache_clone_entry`. The expiration is read from the old entry after the new one was
-- added, which may have freed the old one: `freed` is the value found in its block then.
def pmksaCacheCloneEntry (cr : Crypto) (c : Cache) (alloc : Option Ptr) (now freed : ℤ)
    (old : Entry) (aa : Addr) : Option Ptr × Cache :=
  match pmksaCacheAdd cr c alloc now old.pmk aa c.ownAddr old.networkCtx old.akmp with
  | (none, c) => (none, c)
  | (some ptr, c) =>
    let expiration := if c.pmksa.any fun e => e.ptr = old.ptr then old.expiration else freed
    (some ptr, markOpportunistic c ptr expiration)

def pmksaCacheGetOpportunistic (cr : Crypto) (c : Cache) (alloc : Option Ptr) (now freed : ℤ)
    (networkCtx : Ptr) (aa : Addr) : Option Ptr × Cache :=
  if networkCtx = 0 then (none, c)
  else
    match c.pmksa.find? fun e => e.networkCtx = networkCtx with
    | some old => pmksaCacheCloneEntry cr c alloc now freed old aa
    | none => (none, c)

-- The two lookups of `pmksa_cache_set_current`
def lookupCurrent (c : Cache) (pmkid : Option (BitVec 128)) (bssid : Option Addr) :
    Option Entry :=
  (pmkid.bind fun id => pmksaCacheGet c none (some id)) <|>
    bssid.bind fun aa => pmksaCacheGet c (some aa) none

-- `pmksa_cache_set_current`; the returned flag is the return value 0.
def pmksaCacheSetCurrent (cr : Crypto) (c : Cache) (alloc : Option Ptr) (now freed : ℤ)
    (pmkid : Option (BitVec 128)) (bssid : Option Addr) (networkCtx : Ptr)
    (tryOpportunistic : Bool) : Bool × Cache :=
  let c := { c with curPmksa := none }
  match lookupCurrent c pmkid bssid with
  | some e => (true, { c with curPmksa := some e.ptr })
  | none =>
    match bssid with
    | some aa =>
      if tryOpportunistic then
        let (entry, c) := pmksaCacheGetOpportunistic cr c alloc now freed networkCtx aa
        (entry.isSome, { c with curPmksa := entry })
      else (false, c)
    | none => (false, c)

def wpaSmAbortedCached (c : Cache) : Cache := { c with curPmksa := none }

-- What happens to the cache: the calls of its users, the two timers, and the changes its users
-- make to the PMK in use and to the configured lifetime.
inductive Op where
  | add (alloc : Option Ptr) (now : ℤ) (pmk : Octets) (aa : Addr) (networkCtx : Ptr)
      (akmp : KeyMgmt)
  | getOpportunistic (alloc : Option Ptr) (now freed : ℤ) (networkCtx : Ptr) (aa : Addr)
  | setCurrent (alloc : Option Ptr) (now freed : ℤ) (pmkid : Option (BitVec 128))
      (bssid : Option Addr) (networkCtx : Ptr) (tryOpportunistic : Bool)
  | flush (now : ℤ) (networkCtx : Ptr)
  | expire (now : ℤ)
  | reauth
  | abortedCached
  | setPmk (pmk : Octets)
  | setLifetime (seconds : ℕ)
  deriving DecidableEq, Repr

-- The callers of `pmksa_cache_add` pass the own address of the station.
def exec (cr : Crypto) (c : Cache) : Op → Cache
  | .add alloc now pmk aa networkCtx akmp =>
    (pmksaCacheAdd cr c alloc now pmk aa c.ownAddr networkCtx akmp).2
  | .getOpportunistic alloc now freed networkCtx aa =>
    (pmksaCacheGetOpportunistic cr c alloc now freed networkCtx aa).2
  | .setCurrent alloc now freed pmkid bssid networkCtx tryOpportunistic =>
    (pmksaCacheSetCurrent cr c alloc now freed pmkid bssid networkCtx tryOpportunistic).2
  | .flush now networkCtx => pmksaCacheFlush now c networkCtx
  | .expire now => pmksaCacheExpire now c
  | .reauth => pmksaCacheReauth c
  | .abortedCached => wpaSmAbortedCached c
  | .setPmk pmk => { c with pmk := pmk }
  | .setLifetime seconds => { c with dot11RSNAConfigPMKLifetime := seconds }

def Op.alloc : Op → Option Ptr
  | .add alloc .. | .getOpportunistic alloc .. | .setCurrent alloc .. => alloc
  | _ => none

-- `os_zalloc` never returns a block that is in use.
def Fresh (c : Cache) (op : Op) : Prop := ∀ p ∈ op.alloc, ∀ e ∈ c.pmksa, e.ptr ≠ p

instance (c : Cache) (op : Op) : Decidable (Fresh c op) :=
  inferInstanceAs (Decidable (∀ p ∈ op.alloc, ∀ e ∈ c.pmksa, e.ptr ≠ p))

-- The caches that a station can reach, starting from `wpa_sm_init`, by operations that meet a
-- condition on the cache they find
inductive Reach (cr : Crypto) (ok : Cache → Op → Prop) (start : Cache) : Cache → Prop where
  | init : Reach cr ok start start
  | step {c : Cache} (op : Op) (hc : Reach cr ok start c) (hfresh : Fresh c op) (hok : ok c op) :
      Reach cr ok start (exec cr c op)

-- The cache made by `pmksa_cache_init` in a state machine with any address and settings
def Cache.Initial (c : Cache) : Prop := c.pmksa = [] ∧ c.pmksaCount = 0 ∧ c.curPmksa = none

end WpaSupplicant.PmksaCache

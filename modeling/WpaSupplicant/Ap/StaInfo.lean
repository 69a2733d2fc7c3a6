import WpaSupplicant.Common
import WpaSupplicant.Lib.Bitmap

namespace WpaSupplicant.Ap

open Lib.Bitmap

-- The address of a station entry. An entry gets an address that no other entry had before.
abbrev StaPtr := ℕ

-- `WLAN_STA_*`
structure StaFlags where
  auth : Bool := false
  assoc : Bool := false
  authorized : Bool := false
  pendingPoll : Bool := false
  preauth : Bool := false
  mfp : Bool := false
  wps : Bool := false
  maybeWps : Bool := false
  assocReqOk : Bool := false
  gas : Bool := false
  pendingDisassocCb : Bool := false
  pendingDeauthCb : Bool := false
  deriving DecidableEq, Repr

-- What `ap_handle_timer` does next
inductive TimeoutNext where
  | nullfunc
  | disassoc
  | deauth
  | remove
  deriving DecidableEq, Repr

-- `struct sta_info`; `ext` is what the parts of the access point keep with a station.
structure StaInfo (δ : Type) where
  addr : Addr
  aid : ℕ := 0
  flags : StaFlags := {}
  timeoutNext : TimeoutNext := .nullfunc
  saQueryCount : ℕ := 0
  saQueryTimedOut : Bool := false
  saQueryStart : OsTime := ⟨0, 0⟩
  ext : δ
  deriving DecidableEq, Repr

inductive Handler where
  | apHandleTimer
  | apHandleSessionTimer
  | apStaDeauthCbTimeout
  | apStaDisassocCbTimeout
  | apSaQueryTimer
  deriving DecidableEq, Repr

structure StaTimer where
  handler : Handler
  sta : StaPtr
  deriving DecidableEq, Repr

-- The fields of `struct hostapd_bss_config` that are read here
structure BssConfig where
  maxNumSta : ℤ := 2007
  apMaxInactivity : ℤ := 300
  assocSaQueryMaxTimeout : ℕ := 1000
  deriving DecidableEq, Repr

-- The station table of `struct hostapd_data`: the entries in memory, the list, the chains of the
-- hash table, the map of the AIDs, and the timers of stations that are armed
structure Hapd (δ : Type) where
  conf : BssConfig := {}
  mem : StaPtr → Option (StaInfo δ) := fun _ => none
  next : StaPtr := 0
  staList : List StaPtr := []
  numSta : ℤ := 0
  staHash : BitVec 8 → List StaPtr := fun _ => []
  staAid : Words := fun _ => 0
  timers : List StaTimer := []

def aidWords : ℕ := 63

-- `STA_HASH`: the last octet of an address
def staHashIndex (addr : Addr) : BitVec 8 := addr.setWidth 8

variable {δ : Type}

namespace Hapd

def addrOf (h : Hapd δ) (sta : StaPtr) : Option Addr := (h.mem sta).map StaInfo.addr

def modify (h : Hapd δ) (sta : StaPtr) (f : StaInfo δ → StaInfo δ) : Hapd δ :=
  { h with mem := Function.update h.mem sta ((h.mem sta).map f) }

-- `eloop_register_timeout`
def arm (h : Hapd δ) (handler : Handler) (sta : StaPtr) : Hapd δ :=
  { h with timers := ⟨handler, sta⟩ :: h.timers }

-- `eloop_cancel_timeout`
def cancel (h : Hapd δ) (handler : Handler) (sta : StaPtr) : Hapd δ :=
  { h with timers := h.timers.filter fun t => t ≠ ⟨handler, sta⟩ }

def rearm (h : Hapd δ) (handler : Handler) (sta : StaPtr) : Hapd δ :=
  (h.cancel handler sta).arm handler sta

end Hapd

def apGetSta (h : Hapd δ) (sta : Addr) : Option StaPtr :=
  (h.staHash (staHashIndex sta)).find? fun s => h.addrOf s = some sta

def apStaListDel (h : Hapd δ) (sta : StaPtr) : Hapd δ :=
  { h with staList := h.staList.erase sta }

def apStaHashAdd (h : Hapd δ) (sta : StaPtr) (addr : Addr) : Hapd δ :=
  { h with
    staHash := Function.update h.staHash (staHashIndex addr)
      (sta :: h.staHash (staHashIndex addr)) }

-- `ap_sta_hash_del`: the first entry of the chain with the address of the station
def apStaHashDel (h : Hapd δ) (addr : Addr) : Hapd δ :=
  { h with
    staHash := Function.update h.staHash (staHashIndex addr)
      ((h.staHash (staHashIndex addr)).eraseP fun s => h.addrOf s = some addr) }

-- `ap_free_sta`. The counters of the stations that need protection are left out.
def apFreeSta (h : Hapd δ) (sta : StaPtr) : Hapd δ :=
  match h.mem sta with
  | none => h
  | some s =>
    let h := apStaListDel (apStaHashDel h s.addr) sta
    let h := if 0 < s.aid then { h with staAid := clearBit h.staAid (s.aid - 1) } else h
    let h := { h with numSta := h.numSta - 1 }
    let h := h.cancel .apHandleTimer sta
    let h := h.cancel .apHandleSessionTimer sta
    let h := h.cancel .apStaDeauthCbTimeout sta
    let h := h.cancel .apStaDisassocCbTimeout sta
    let h := h.cancel .apSaQueryTimer sta
    { h with mem := Function.update h.mem sta none }

def hostapdFreeStas (h : Hapd δ) : Hapd δ := h.staList.foldl apFreeSta h

-- The first part of `ap_handle_timer`: what the timer does next, and after which time if the
-- station was active or has answered the poll. `inactiveSec` is what the driver reports.
def checkInactivity (apMaxInactivity : ℤ) (s : StaInfo δ) (inactiveSec : ℤ) : TimeoutNext × ℤ :=
  let active := s.flags.assoc && (s.timeoutNext = .nullfunc || s.timeoutNext = .disassoc) &&
    inactiveSec ≠ -1 && decide (inactiveSec < apMaxInactivity)
  let timeoutNext := if active then .nullfunc else s.timeoutNext
  if s.flags.assoc && timeoutNext = .disassoc && !s.flags.pendingPoll then
    (.nullfunc, apMaxInactivity)
  else (timeoutNext, if active then apMaxInactivity - inactiveSec else 0)

-- The last part of `ap_handle_timer`
def nextTimeout (h : Hapd δ) (sta : StaPtr) : TimeoutNext → Hapd δ
  | .nullfunc =>
    (h.modify sta fun s =>
      { s with
        flags.pendingPoll := s.flags.assoc || s.flags.pendingPoll
        timeoutNext := .disassoc }).arm .apHandleTimer sta
  | .disassoc =>
    (h.modify sta fun s =>
      { s with
        flags := { s.flags with authorized := false, assoc := false }
        timeoutNext := .deauth }).arm .apHandleTimer sta
  | .deauth | .remove => apFreeSta h sta

-- `ap_handle_timer`, which the event loop has taken out of its list
def apHandleTimer (h : Hapd δ) (sta : StaPtr) (inactiveSec : ℤ) : Hapd δ :=
  match h.mem sta with
  | none => h
  | some s =>
    if s.timeoutNext = .remove then apFreeSta h sta
    else
      let r := checkInactivity h.conf.apMaxInactivity s inactiveSec
      let h := h.modify sta fun s => { s with timeoutNext := r.1 }
      if r.2 ≠ 0 then h.arm .apHandleTimer sta else nextTimeout h sta r.1

def apHandleSessionTimer (h : Hapd δ) (sta : StaPtr) : Hapd δ :=
  match h.mem sta with
  | none => h
  | some s =>
    if !s.flags.auth then
      if s.flags.gas then apFreeSta h sta else h
    else apFreeSta h sta

def apStaSessionTimeout (h : Hapd δ) (sta : StaPtr) : Hapd δ := h.rearm .apHandleSessionTimer sta

def apStaNoSessionTimeout (h : Hapd δ) (sta : StaPtr) : Hapd δ :=
  h.cancel .apHandleSessionTimer sta

-- `ap_sta_add`; a BSS that has the station too disconnects it, which is an operation of that BSS.
def apStaAdd [Inhabited δ] (h : Hapd δ) (addr : Addr) (alloc : Bool) : Hapd δ × Option StaPtr :=
  match apGetSta h addr with
  | some sta => (h, some sta)
  | none =>
    if h.conf.maxNumSta ≤ h.numSta then (h, none)
    else if !alloc then (h, none)
    else
      let sta := h.next
      let h := { h with
        next := h.next + 1
        mem := Function.update h.mem sta (some { addr := addr, ext := default }) }
      let h := h.arm .apHandleTimer sta
      let h := { h with staList := sta :: h.staList, numSta := h.numSta + 1 }
      (apStaHashAdd h sta addr, some sta)

def hostapdGetAid (h : Hapd δ) (sta : StaPtr) : Hapd δ × ℤ :=
  match h.mem sta with
  | none => (h, -1)
  | some s =>
    if 0 < s.aid then (h, 0)
    else
      match firstClear aidWords h.staAid with
      | none => (h, -1)
      | some n =>
        let aid := n + 1
        if 2007 < aid then (h, -1)
        else
          ({ h.modify sta (fun s => { s with aid := aid }) with
              staAid := setBit h.staAid n }, 0)

def apStaDisassociate (h : Hapd δ) (sta : StaPtr) : Hapd δ :=
  let h := h.modify sta fun s =>
    { s with
      flags := { s.flags with assoc := false, authorized := false, pendingDisassocCb := true }
      timeoutNext := .deauth }
  (h.rearm .apHandleTimer sta).rearm .apStaDisassocCbTimeout sta

-- `ap_sta_deauthenticate`; `ap_sta_disconnect` does the same to a station that it finds.
def apStaDeauthenticate (h : Hapd δ) (sta : StaPtr) : Hapd δ :=
  let h := h.modify sta fun s =>
    { s with
      flags :=
        { s.flags with auth := false, assoc := false, authorized := false, pendingDeauthCb := true }
      timeoutNext := .remove }
  (h.rearm .apHandleTimer sta).rearm .apStaDeauthCbTimeout sta

-- `ap_sta_deauth_cb`; the handler of the timer tells the driver only.
def apStaDeauthCb (h : Hapd δ) (sta : StaPtr) : Hapd δ :=
  match h.mem sta with
  | none => h
  | some s =>
    if !s.flags.pendingDeauthCb then h
    else
      (h.modify sta fun s => { s with flags.pendingDeauthCb := false }).cancel
        .apStaDeauthCbTimeout sta

def apStaDisassocCb (h : Hapd δ) (sta : StaPtr) : Hapd δ :=
  match h.mem sta with
  | none => h
  | some s =>
    if !s.flags.pendingDisassocCb then h
    else
      (h.modify sta fun s => { s with flags.pendingDisassocCb := false }).cancel
        .apStaDisassocCbTimeout sta

-- The time units that have passed since the SA Query procedure was started, a `u32`
def saQueryPassed (start now : OsTime) : ℕ :=
  (((now.sec - start.sec) * 1000000 + (now.usec - start.usec)).tdiv 1024 % 2 ^ 32).toNat

def apCheckSaQueryTimeout (h : Hapd δ) (sta : StaPtr) (now : OsTime) : Hapd δ × Bool :=
  match h.mem sta with
  | none => (h, false)
  | some s =>
    if h.conf.assocSaQueryMaxTimeout < saQueryPassed s.saQueryStart now then
      ((h.modify sta fun s => { s with saQueryTimedOut := true, saQueryCount := 0 }).cancel
        .apSaQueryTimer sta, true)
    else (h, false)

-- `ap_sa_query_timer`; `alloc` is for the transaction identifiers.
def apSaQueryTimer (h : Hapd δ) (sta : StaPtr) (now : OsTime) (alloc : Bool) : Hapd δ :=
  match h.mem sta with
  | none => h
  | some s =>
    let r := if 0 < s.saQueryCount then apCheckSaQueryTimeout h sta now else (h, false)
    if r.2 then r.1
    else if !alloc then r.1
    else
      (r.1.modify sta fun s =>
        { s with
          saQueryStart := if s.saQueryCount = 0 then now else s.saQueryStart
          saQueryCount := s.saQueryCount + 1 }).arm .apSaQueryTimer sta

def apStaStartSaQuery (h : Hapd δ) (sta : StaPtr) (now : OsTime) (alloc : Bool) : Hapd δ :=
  apSaQueryTimer h sta now alloc

def apStaStopSaQuery (h : Hapd δ) (sta : StaPtr) : Hapd δ :=
  (h.cancel .apSaQueryTimer sta).modify sta fun s => { s with saQueryCount := 0 }

end WpaSupplicant.Ap

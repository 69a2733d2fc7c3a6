import WpaSupplicant.Ap.StaInfo

namespace WpaSupplicant.Ap

open Lib.Bitmap

variable {δ : Type}

-- What happens to the station table. The functions are called for a station that was looked up,
-- the handlers of timers for one whose timer is armed.
inductive StaOp where
  | add (addr : Addr) (alloc : Bool)
  | assoc (addr : Addr)
  | free (addr : Addr)
  | freeStas
  | change (addr : Addr) (flags : StaFlags) (timeoutNext : TimeoutNext)
  | rearm (addr : Addr)
  | sessionTimeout (addr : Addr)
  | noSessionTimeout (addr : Addr)
  | disassociate (addr : Addr)
  | deauthenticate (addr : Addr)
  | deauthCb (addr : Addr)
  | disassocCb (addr : Addr)
  | startSaQuery (addr : Addr) (now : OsTime) (alloc : Bool)
  | checkSaQuery (addr : Addr) (now : OsTime)
  | stopSaQuery (addr : Addr)
  | fire (t : StaTimer) (inactiveSec : ℤ) (now : OsTime) (alloc : Bool)
  | lose (t : StaTimer)
  deriving DecidableEq, Repr

def withSta (h : Hapd δ) (addr : Addr) (f : StaPtr → Hapd δ) : Hapd δ :=
  match apGetSta h addr with
  | none => h
  | some sta => f sta

def fireTimer (h : Hapd δ) (t : StaTimer) (inactiveSec : ℤ) (now : OsTime) (alloc : Bool) : Hapd δ :=
  match t.handler with
  | .apHandleTimer => apHandleTimer h t.sta inactiveSec
  | .apHandleSessionTimer => apHandleSessionTimer h t.sta
  | .apStaDeauthCbTimeout => h
  | .apStaDisassocCbTimeout => h
  | .apSaQueryTimer => apSaQueryTimer h t.sta now alloc

-- `change` stands for the assignments that other code makes to the flags of a station and to what
-- its timer does next, `rearm` for `handle_disassoc`, and `lose` for a registration that failed.
def staExec [Inhabited δ] (h : Hapd δ) : StaOp → Hapd δ
  | .add addr alloc => (apStaAdd h addr alloc).1
  | .assoc addr => withSta h addr fun sta => (hostapdGetAid h sta).1
  | .free addr => withSta h addr (apFreeSta h)
  | .freeStas => hostapdFreeStas h
  | .change addr flags timeoutNext =>
    withSta h addr fun sta =>
      h.modify sta fun s => { s with flags := flags, timeoutNext := timeoutNext }
  | .rearm addr => withSta h addr (h.rearm .apHandleTimer)
  | .sessionTimeout addr => withSta h addr (apStaSessionTimeout h)
  | .noSessionTimeout addr => withSta h addr (apStaNoSessionTimeout h)
  | .disassociate addr => withSta h addr (apStaDisassociate h)
  | .deauthenticate addr => withSta h addr (apStaDeauthenticate h)
  | .deauthCb addr => withSta h addr (apStaDeauthCb h)
  | .disassocCb addr => withSta h addr (apStaDisassocCb h)
  | .startSaQuery addr now alloc => withSta h addr fun sta => apStaStartSaQuery h sta now alloc
  | .checkSaQuery addr now => withSta h addr fun sta => (apCheckSaQueryTimeout h sta now).1
  | .stopSaQuery addr => withSta h addr (apStaStopSaQuery h)
  | .fire t inactiveSec now alloc =>
    if t ∈ h.timers then
      fireTimer { h with timers := h.timers.erase t } t inactiveSec now alloc
    else h
  | .lose t => { h with timers := h.timers.erase t }

structure StaInv (h : Hapd δ) : Prop where
  fresh : ∀ p, h.next ≤ p → h.mem p = none
  list : ∀ p, p ∈ h.staList ↔ ∃ s, h.mem p = some s
  listNodup : h.staList.Nodup
  hash : ∀ b p, p ∈ h.staHash b ↔ ∃ s, h.mem p = some s ∧ staHashIndex s.addr = b
  hashNodup : ∀ b, (h.staHash b).Nodup
  addrUnique : ∀ p q s t, h.mem p = some s → h.mem q = some t → s.addr = t.addr → p = q
  count : h.numSta = h.staList.length
  bound : h.numSta ≤ max 0 h.conf.maxNumSta
  aidRange : ∀ p s, h.mem p = some s → s.aid ≤ 2007
  aidUnique : ∀ p q s t, h.mem p = some s → h.mem q = some t → s.aid = t.aid → s.aid ≠ 0 → p = q
  aidBits : ∀ n, bit h.staAid n = true ↔ ∃ p s, h.mem p = some s ∧ s.aid = n + 1
  timers : ∀ t ∈ h.timers, ∃ s, h.mem t.sta = some s

end WpaSupplicant.Ap

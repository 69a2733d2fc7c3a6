import WpaSupplicant.Ap.PmksaCacheAuth.Lemmas
import WpaSupplicant.Lib.Machine

namespace WpaSupplicant.Ap.Pmksa

open Lib.HashChain Lib.SortedList Lib.Machine

-- The authenticators of an access point, one for each of its BSSs. `next` is the address of the
-- next entry; a call that does not return stops everything.
structure Sys (n : ℕ) where
  auths : Fin n → Auth
  next : Ptr := 1
  now : ℤ := 0
  hung : Bool := false

-- What happens to the caches. An association request is for a station of a BSS.
inductive Op (n : ℕ) where
  | add (b : Fin n) (alloc : Bool) (pmk : Octets) (aa spa : Addr) (sessionTimeout : ℤ)
      (akmp : KeyMgmt)
  | addOkc (b : Fin n) (alloc : Bool) (old : Entry) (pmkid : BitVec 128)
  | expire (b : Fin n)
  | validate (b : Fin n) (addr : Addr) (wpaIe : Octets) (okcAlloc ieAlloc : Bool)
  | staInit (b : Fin n) (addr : Addr)
  | staDeinit (b : Fin n) (addr : Addr)
  | clearPmksa (b : Fin n) (addr : Addr) (entry : Ptr)
  | tick (now : ℤ)
  deriving DecidableEq, Repr

variable {n : ℕ} (cr : Crypto)

namespace Sys

-- The caches in the order in which `wpa_auth_for_each_auth` visits them
def caches (s : Sys n) : List Cache := (List.finRange n).map fun b => (s.auths b).cache

def set (s : Sys n) (b : Fin n) (a : Auth) : Sys n :=
  { s with auths := Function.update s.auths b a, next := s.next + 1 }

def alloc (s : Sys n) (ok : Bool) : Option Ptr := if ok then some s.next else none

end Sys

-- `wpa_auth_sta_init` and `wpa_auth_sta_deinit`
def staInit (a : Auth) (addr : Addr) : Auth :=
  { a with sms := Function.update a.sms addr (some ((a.sms addr).getD {})) }

def staDeinit (a : Auth) (addr : Addr) : Auth :=
  { a with sms := Function.update a.sms addr none }

def wpaAuthStaClearPmksa (a : Auth) (addr : Addr) (entry : Ptr) : Auth :=
  { a with sms := Function.update a.sms addr ((a.sms addr).map (wpaAuthPmksaClearCb entry)) }

def exec (s : Sys n) (op : Op n) : Sys n :=
  if s.hung then s
  else
    match op with
    | .add b alloc pmk aa spa sessionTimeout akmp =>
      s.set b (pmksaCacheAuthAdd s.now cr (s.auths b) (s.alloc alloc) pmk aa spa sessionTimeout
        akmp)
    | .addOkc b alloc old pmkid =>
      s.set b (pmksaCacheAddOkc (s.auths b) (s.alloc alloc) old pmkid).1
    | .expire b => s.set b (pmksaCacheExpire s.now (s.auths b))
    | .validate b addr wpaIe okcAlloc ieAlloc =>
      match wpaValidateWpaIe cr s.caches (s.auths b) addr wpaIe ⟨s.alloc okcAlloc, ieAlloc⟩ with
      | none => { s with hung := true }
      | some (a, _) => s.set b a
    | .staInit b addr => s.set b (staInit (s.auths b) addr)
    | .staDeinit b addr => s.set b (staDeinit (s.auths b) addr)
    | .clearPmksa b addr entry => s.set b (wpaAuthStaClearPmksa (s.auths b) addr entry)
    | .tick now => { s with now := now }

def selection (s : Sys n) (b : Fin n) (addr : Addr) (wpaIe : Octets) : Option Selected :=
  match (s.auths b).sms addr with
  | none => none
  | some sm =>
    match (negotiate (s.auths b).conf sm wpaIe).2 with
    | .inl _ => none
    | .inr pmkids => selectPmksa cr s.caches (s.auths b) addr pmkids

def Sys.Initial (s : Sys n) : Prop :=
  ∀ b, (s.auths b).cache.pmksa = [] ∧ (∀ h, (s.auths b).cache.pmkid h = []) ∧
    (s.auths b).cache.pmksaCount = 0 ∧ (s.auths b).cache.expireTimer = none ∧
    ∀ addr sm, (s.auths b).sms addr = some sm → sm.pmksa = none

structure Inv (s : Sys n) : Prop where
  cache : ∀ b, CacheInv (s.auths b)
  fresh : ∀ b, ∀ e ∈ (s.auths b).cache.pmksa, e.ptr < s.next

variable {cr} {s : Sys n} {a a' : Auth}

theorem Inv.initial (h : s.Initial) : Inv s := by
  refine ⟨fun b => ?_, fun b e he => ?_⟩
  · obtain ⟨hpmksa, hpmkid, hcount, -, hsms⟩ := h b
    refine ⟨fun i => ?_, ?_, ?_, ?_, fun addr sm p hsm hp => ?_⟩
    · rw [hpmkid, hpmksa]
      exact .refl _
    · simp [hpmksa]
    · rw [hpmksa]
      exact List.Pairwise.nil
    · simp [hpmksa, hcount]
    · rw [hsms addr sm hsm] at hp
      cases hp
  · rw [(h b).1] at he
    cases he

-- An authenticator takes entries out, or it adds one at the new address.
structure Grows (next : Ptr) (a a' : Auth) : Prop where
  inv : CacheInv a'
  mem : ∀ e ∈ a'.cache.pmksa, e ∈ a.cache.pmksa ∨ e.ptr = next

theorem Shrinks.grows {next : Ptr} (h : Shrinks a a') : Grows next a a' :=
  ⟨h.inv, fun _ he => .inl (h.sublist.subset he)⟩

theorem Inv.set (h : Inv s) {b : Fin n} (hgrows : Grows s.next (s.auths b) a') :
    Inv (s.set b a') := by
  refine ⟨fun b' => ?_, fun b' e he => ?_⟩
  · by_cases hb : b' = b
    · subst hb
      simpa [Sys.set] using hgrows.inv
    · simpa [Sys.set, hb] using h.cache b'
  · by_cases hb : b' = b
    · subst hb
      simp only [Sys.set, Function.update_self] at he ⊢
      rcases hgrows.mem e he with hold | hnew
      · exact (h.fresh b' e hold).trans (Nat.lt_succ_self _)
      · exact hnew ▸ Nat.lt_succ_self _
    · simp only [Sys.set, Function.update_of_ne hb] at he ⊢
      exact (h.fresh b' e he).trans (Nat.lt_succ_self _)

section Grow

variable {next : Ptr} (h : CacheInv a) (hfresh : ∀ e ∈ a.cache.pmksa, e.ptr < next)
include h hfresh

omit h in
theorem link_grows (hshrinks : Shrinks a a') {e : Entry} (hptr : e.ptr = next) :
    Grows next a { a' with cache := pmksaCacheLinkEntry a'.cache e } := by
  refine ⟨hshrinks.inv.link fun e' he' hne => ?_, fun e' he' => ?_⟩
  · have hlt := hfresh e' (hshrinks.sublist.subset he')
    exact absurd (hne.trans hptr) (Nat.ne_of_lt hlt)
  · rcases List.mem_cons.mp ((insertBy_perm _ _ _).mem_iff.mp he') with rfl | he'
    · exact .inr hptr
    · exact .inl (hshrinks.sublist.subset he')

theorem pmksaCacheAuthAdd_grows (now : ℤ) (alloc : Bool) (pmk : Octets) (aa spa : Addr)
    (sessionTimeout : ℤ) (akmp : KeyMgmt) :
    Grows next a (pmksaCacheAuthAdd now cr a (if alloc then some next else none) pmk aa spa
      sessionTimeout akmp) := by
  unfold pmksaCacheAuthAdd
  split
  · exact (Shrinks.refl h).grows
  cases alloc with
  | false => exact (Shrinks.refl h).grows
  | true =>
    have hreplace := replaceOld_shrinks h spa
    exact link_grows hfresh (hreplace.trans (makeRoom_shrinks hreplace.inv)) rfl

theorem pmksaCacheAddOkc_grows (alloc : Bool) (old : Entry) (pmkid : BitVec 128) :
    Grows next a (pmksaCacheAddOkc a (if alloc then some next else none) old pmkid).1 := by
  cases alloc with
  | false => exact (Shrinks.refl h).grows
  | true => exact link_grows hfresh (.refl h) rfl

end Grow

theorem CacheInv.setSm (h : CacheInv a) (addr : Addr) {sm : Sm}
    (hsm : ∀ p, sm.pmksa = some p → ∃ e ∈ a.cache.pmksa, e.ptr = p) : CacheInv (setSm a addr sm) := by
  refine ⟨h.chained, h.ptrs, h.sorted, h.count, fun addr' sm' p hsm' hp => ?_⟩
  by_cases haddr : addr' = addr
  · subst haddr
    simp only [Ap.setSm, Function.update_self] at hsm'
    cases hsm'
    exact hsm p hp
  · simp only [Ap.setSm, Function.update_of_ne haddr] at hsm'
    exact h.sms addr' sm' p hsm' hp

variable {next : Ptr}

theorem Grows.setSm (h : Grows next a a') (addr : Addr) {sm : Sm}
    (hsm : ∀ p, sm.pmksa = some p → ∃ e ∈ a'.cache.pmksa, e.ptr = p) :
    Grows next a (Ap.setSm a' addr sm) := ⟨h.inv.setSm addr hsm, h.mem⟩

-- The IE is refused, it is refused after the key management suite was assigned, or all is assigned.
theorem negotiate_cases (conf : WpaAuthConfig) (sm : Sm) (wpaIe : Octets) :
    (∃ res, negotiate conf sm wpaIe = (sm, .inl res)) ∨
      (∃ keyMgmt res, negotiate conf sm wpaIe = ({ sm with wpaKeyMgmt := keyMgmt }, .inl res)) ∨
      ∃ keyMgmt pairwise wpa mgmtFrameProt pmkids, negotiate conf sm wpaIe =
        ({ sm with
            wpaKeyMgmt := keyMgmt, pairwise := pairwise, wpa := wpa,
            mgmtFrameProt := mgmtFrameProt, pmksa := none },
          .inr pmkids) := by
  simp only [negotiate]
  repeat' split
  all_goals
    first
      | exact .inl ⟨_, rfl⟩
      | exact .inr (.inl ⟨_, _, rfl⟩)
      | exact .inr (.inr ⟨_, _, _, _, _, rfl⟩)

theorem selectOkc_ne_cached (caches : List Cache) (aa spa : Addr) (pmkids : List (BitVec 128)) (e : Entry) :
    selectOkc cr caches aa spa pmkids ≠ some (.cached e) := by
  induction pmkids with
  | nil => simp [selectOkc]
  | cons pmkid next ih =>
    rw [selectOkc]
    split <;> simp_all

theorem selectPmksa_cached {caches : List Cache} {spa : Addr} {pmkids : List (BitVec 128)} {e : Entry}
    (h : CacheInv a) (hsel : selectPmksa cr caches a spa pmkids = some (.cached e)) :
    e ∈ a.cache.pmksa := by
  rw [selectPmksa] at hsel
  split at hsel
  · rename_i e' hfind
    cases hsel
    obtain ⟨pmkid, -, hget⟩ := List.exists_of_findSome?_eq_some hfind
    exact (pmksaCacheAuthGet_mem h hget).1
  · split at hsel
    · exact absurd hsel (selectOkc_ne_cached caches a.addr spa pmkids e)
    · cases hsel

theorem usePmksa_grows (h : CacheInv a) (hfresh : ∀ e ∈ a.cache.pmksa, e.ptr < next) (addr : Addr)
    {sm : Sm} (hsm : sm.pmksa = none) (okcAlloc ieAlloc : Bool) {selected : Selected}
    (hsel : ∀ e, selected = .cached e → e ∈ a.cache.pmksa) :
    Grows next a (usePmksa a addr sm ⟨if okcAlloc then some next else none, ieAlloc⟩ selected) := by
  cases selected with
  | cached e =>
    refine (Shrinks.refl h).grows.setSm addr fun p hp => ?_
    cases hp
    exact ⟨e, hsel e rfl, rfl⟩
  | okc old pmkid =>
    refine (pmksaCacheAddOkc_grows h hfresh okcAlloc old pmkid).setSm addr fun p hp => ?_
    cases okcAlloc with
    | false => cases hp
    | true =>
      cases hp
      exact ⟨okcEntry next old pmkid, (insertBy_perm _ _ _).mem_iff.mpr List.mem_cons_self, rfl⟩
  | nothing =>
    refine (Shrinks.refl h).grows.setSm addr fun p hp => ?_
    rw [hsm] at hp
    cases hp

theorem copyIe_grows (h : Grows next a a') (addr : Addr) (wpaIe : Octets) (ans : IeAnswers) :
    Grows next a (copyIe a' addr wpaIe ans).1 := by
  rw [copyIe]
  split
  · exact h
  rename_i sm hsm
  split
  · exact h.setSm addr fun p hp => h.inv.sms addr sm p hsm hp
  · exact h.setSm addr fun p hp => h.inv.sms addr sm p hsm hp

theorem wpaValidateWpaIe_grows (h : CacheInv a) (hfresh : ∀ e ∈ a.cache.pmksa, e.ptr < next)
    {caches : List Cache} {addr : Addr} {wpaIe : Octets} {okcAlloc ieAlloc : Bool}
    {res : WpaValidateResult}
    (hres : wpaValidateWpaIe cr caches a addr wpaIe
      ⟨if okcAlloc then some next else none, ieAlloc⟩ = some (a', res)) : Grows next a a' := by
  rw [wpaValidateWpaIe] at hres
  split at hres
  · cases hres
    exact (Shrinks.refl h).grows
  rename_i sm hsm
  split at hres
  · rename_i sm' res' hneg
    cases hres
    refine (Shrinks.refl h).grows.setSm addr fun p hp => ?_
    refine h.sms addr sm p hsm ?_
    rcases negotiate_cases a.conf sm wpaIe with ⟨res, heq⟩ | ⟨_, res, heq⟩ |
      ⟨_, _, _, _, _, heq⟩
    · rw [hneg] at heq
      cases heq
      exact hp
    · rw [hneg] at heq
      cases heq
      exact hp
    · rw [hneg] at heq
      cases heq
  · rename_i sm' pmkids hneg
    obtain ⟨selected, hsel, heq⟩ := Option.map_eq_some_iff.mp hres
    have hnone : sm'.pmksa = none := by
      rcases negotiate_cases a.conf sm wpaIe with ⟨res, heq⟩ | ⟨_, res, heq⟩ |
      ⟨_, _, _, _, _, heq⟩
      · rw [hneg] at heq
        cases heq
      · rw [hneg] at heq
        cases heq
      · rw [hneg] at heq
        cases heq
        rfl
    have hmem : ∀ e, selected = .cached e → e ∈ a.cache.pmksa := by
      rintro e rfl
      exact selectPmksa_cached h hsel
    have huse := usePmksa_grows h hfresh addr hnone okcAlloc ieAlloc hmem
    have ha' : a' = (copyIe _ addr wpaIe _).1 := congrArg Prod.fst heq.symm
    rw [ha']
    exact copyIe_grows huse addr wpaIe _

theorem Inv.exec (h : Inv s) (op : Op n) : Inv (exec cr s op) := by
  unfold Pmksa.exec
  split
  · exact h
  have hrefl (b : Fin n) := Shrinks.refl (h.cache b)
  cases op with
  | add b alloc pmk aa spa sessionTimeout akmp =>
    exact h.set (pmksaCacheAuthAdd_grows (h.cache b) (h.fresh b) _ alloc pmk aa spa _ akmp)
  | addOkc b alloc old pmkid =>
    exact h.set (pmksaCacheAddOkc_grows (h.cache b) (h.fresh b) alloc old pmkid)
  | expire b => exact h.set (pmksaCacheExpire_shrinks s.now (h.cache b)).grows
  | validate b addr wpaIe okcAlloc ieAlloc =>
    dsimp only
    split
    · exact ⟨h.cache, h.fresh⟩
    · rename_i a res hres
      exact h.set (wpaValidateWpaIe_grows (h.cache b) (h.fresh b) hres)
  | staInit b addr =>
    refine h.set ((hrefl b).grows.setSm addr fun p hp => ?_)
    cases hsm : (s.auths b).sms addr with
    | none =>
      rw [hsm] at hp
      cases hp
    | some sm =>
      rw [hsm] at hp
      exact (h.cache b).sms addr sm p hsm hp
  | staDeinit b addr =>
    refine h.set ⟨⟨(h.cache b).chained, (h.cache b).ptrs, (h.cache b).sorted, (h.cache b).count, ?_⟩,
      fun e he => .inl he⟩
    intro addr' sm p hsm hp
    by_cases haddr : addr' = addr
    · subst haddr
      simp [staDeinit] at hsm
    · simp only [staDeinit, Function.update_of_ne haddr] at hsm
      exact (h.cache b).sms addr' sm p hsm hp
  | clearPmksa b addr entry =>
    refine h.set ⟨⟨(h.cache b).chained, (h.cache b).ptrs, (h.cache b).sorted, (h.cache b).count, ?_⟩,
      fun e he => .inl he⟩
    intro addr' sm p hsm hp
    by_cases haddr : addr' = addr
    · subst haddr
      simp only [wpaAuthStaClearPmksa, Function.update_self] at hsm
      obtain ⟨sm₀, hsm₀, rfl⟩ := Option.map_eq_some_iff.mp hsm
      rw [wpaAuthPmksaClearCb] at hp
      split at hp
      · cases hp
      · exact (h.cache b).sms addr' sm₀ p hsm₀ hp
    · simp only [wpaAuthStaClearPmksa, Function.update_of_ne haddr] at hsm
      exact (h.cache b).sms addr' sm p hsm hp
  | tick now => exact ⟨h.cache, h.fresh⟩

theorem runs_inv {ok : Sys n → Op n → Prop} {start : Sys n} (hstart : start.Initial)
    (hrun : Runs (Pmksa.exec cr) ok start s) : Inv s :=
  hrun.rule (Inv.initial hstart) fun _ op hs _ => hs.exec op

end WpaSupplicant.Ap.Pmksa

import WpaSupplicant.Ap.Mlme
import WpaSupplicant.Ap.PmksaCacheAuth.Run
import WpaSupplicant.Ap.StaTable.Lemmas

namespace WpaSupplicant.Ap.Mlme

open Lib.Octets Pmksa

section Table

variable {h h' : Hapd MlmeSta} {sta : StaPtr}

def NoFt (h : Hapd MlmeSta) : Prop := ∀ p s, h.mem p = some s → s.ext.authAlg ≠ wlanAuthFt

def core (s : Sta) : Addr × Bool := (s.addr, s.flags.mfp)

structure Quiet (h h' : Hapd MlmeSta) : Prop where
  inv : StaInv h → StaInv h'
  mem : ∀ p, (h'.mem p).map core = (h.mem p).map core
  noFt : NoFt h → NoFt h'

theorem Quiet.refl (h : Hapd MlmeSta) : Quiet h h := ⟨id, fun _ => rfl, id⟩

theorem Quiet.trans {h'' : Hapd MlmeSta} (hq : Quiet h h') (hq' : Quiet h' h'') : Quiet h h'' :=
  ⟨hq'.inv ∘ hq.inv, fun p => (hq'.mem p).trans (hq.mem p), hq'.noFt ∘ hq.noFt⟩

theorem Quiet.forth (hq : Quiet h h') {p : StaPtr} {s : Sta} (hs : h.mem p = some s) :
    ∃ s', h'.mem p = some s' ∧ core s' = core s := by
  have hmem := hq.mem p
  rw [hs] at hmem
  exact Option.map_eq_some_iff.mp hmem

theorem Quiet.back (hq : Quiet h h') {p : StaPtr} {s' : Sta} (hs' : h'.mem p = some s') :
    ∃ s, h.mem p = some s ∧ core s = core s' := by
  have hmem := (hq.mem p).symm
  rw [hs'] at hmem
  exact Option.map_eq_some_iff.mp hmem

variable {f : Sta → Sta}

theorem modify_core (hf : ∀ s, h.mem sta = some s → core (f s) = core s) (p : StaPtr) :
    ((h.modify sta f).mem p).map core = (h.mem p).map core := by
  by_cases hp : p = sta
  · subst hp
    simp only [Hapd.modify, Function.update_self]
    cases hs : h.mem p with
    | none => rfl
    | some s => simp [hf s hs]
  · simp only [Hapd.modify, Function.update_of_ne hp]

theorem NoFt.modify (hno : NoFt h)
    (hf : ∀ s, h.mem sta = some s → s.ext.authAlg ≠ wlanAuthFt → (f s).ext.authAlg ≠ wlanAuthFt) :
    NoFt (h.modify sta f) := by
  intro p s' hs'
  by_cases hp : p = sta
  · subst hp
    simp only [Hapd.modify, Function.update_self] at hs'
    obtain ⟨s, hs, rfl⟩ := Option.map_eq_some_iff.mp hs'
    exact hf s hs (hno p s hs)
  · simp only [Hapd.modify, Function.update_of_ne hp] at hs'
    exact hno p s' hs'

theorem Quiet.modify
    (hf : ∀ s, h.mem sta = some s →
      core (f s) = core s ∧ (f s).aid = s.aid ∧
        (s.ext.authAlg ≠ wlanAuthFt → (f s).ext.authAlg ≠ wlanAuthFt)) : Quiet h (h.modify sta f) := by
  refine ⟨fun hinv => ?_, modify_core fun s hs => (hf s hs).1,
    fun hno => hno.modify fun s hs => (hf s hs).2.2⟩
  refine hinv.of_same rfl rfl rfl rfl rfl rfl (fun p => ?_) hinv.timers
  by_cases hp : p = sta
  · subst hp
    simp only [Hapd.modify, Function.update_self]
    cases hs : h.mem p with
    | none => rfl
    | some s =>
      have haddr : (f s).addr = s.addr := congrArg Prod.fst (hf s hs).1
      simp [haddr, (hf s hs).2.1]
  · simp only [Hapd.modify, Function.update_of_ne hp]

theorem Quiet.assign
    (hf : ∀ s, core (f s) = core s ∧ (f s).aid = s.aid ∧ (f s).ext.authAlg = s.ext.authAlg) :
    Quiet h (h.modify sta f) :=
  .modify fun s _ => ⟨(hf s).1, (hf s).2.1, fun hno => (hf s).2.2 ▸ hno⟩

theorem Quiet.arm (handler : Handler) (hsta : ∃ s, h.mem sta = some s) : Quiet h (h.arm handler sta) :=
  ⟨fun hinv => hinv.arm handler hsta, fun _ => rfl, id⟩

theorem Quiet.cancel (handler : Handler) : Quiet h (h.cancel handler sta) :=
  ⟨fun hinv => hinv.cancel handler, fun _ => rfl, id⟩

theorem Quiet.exists_mem (hq : Quiet h h') (hsta : ∃ s, h.mem sta = some s) :
    ∃ s, h'.mem sta = some s := by
  obtain ⟨s, hs⟩ := hsta
  obtain ⟨s', hs', -⟩ := hq.forth hs
  exact ⟨s', hs'⟩

theorem Quiet.arm_of (hq : Quiet h h') (handler : Handler) (hsta : ∃ s, h.mem sta = some s) :
    Quiet h (h'.arm handler sta) := hq.trans (.arm handler (hq.exists_mem hsta))

theorem Quiet.rearm_of (hq : Quiet h h') (handler : Handler) (hsta : ∃ s, h.mem sta = some s) :
    Quiet h (h'.rearm handler sta) := (hq.trans (.cancel handler)).arm_of handler hsta

theorem Quiet.apCheckSaQueryTimeout {now : OsTime} : Quiet h (apCheckSaQueryTimeout h sta now).1 := by
  rw [Ap.apCheckSaQueryTimeout]
  split
  · exact .refl h
  split
  · refine Quiet.trans (.assign ?_) (.cancel _)
    exact fun _ => ⟨rfl, rfl, rfl⟩
  · exact .refl h

theorem Quiet.apSaQueryTimer {now : OsTime} {alloc : Bool} : Quiet h (apSaQueryTimer h sta now alloc) := by
  rw [Ap.apSaQueryTimer]
  split
  · exact .refl h
  rename_i s hs
  generalize hr : (if 0 < s.saQueryCount then Ap.apCheckSaQueryTimeout h sta now else (h, false)) = r
  have hquiet : Quiet h r.1 := by
    rw [← hr]
    split
    · exact .apCheckSaQueryTimeout
    · exact .refl h
  dsimp only
  split
  · exact hquiet
  split
  · exact hquiet
  · refine (hquiet.trans (.assign ?_)).arm_of _ ⟨s, hs⟩
    exact fun _ => ⟨rfl, rfl, rfl⟩

theorem hostapdGetAid_cases (h : Hapd MlmeSta) (sta : StaPtr) :
    (hostapdGetAid h sta).1 = h ∨
      ∃ aid staAid, (hostapdGetAid h sta).1 =
        { h.modify sta (fun s => { s with aid := aid }) with staAid := staAid } := by
  rw [Ap.hostapdGetAid]
  split
  · exact .inl rfl
  split
  · exact .inl rfl
  split
  · exact .inl rfl
  dsimp only
  split
  · exact .inl rfl
  · exact .inr ⟨_, _, rfl⟩

theorem Quiet.hostapdGetAid (h : Hapd MlmeSta) (sta : StaPtr) : Quiet h (hostapdGetAid h sta).1 := by
  refine ⟨fun hinv => hinv.hostapdGetAid, fun p => ?_, fun hno => ?_⟩
  · rcases hostapdGetAid_cases h sta with heq | ⟨aid, staAid, heq⟩
    · rw [heq]
    · rw [heq]
      exact modify_core (f := fun s => { s with aid := aid }) (fun _ _ => rfl) p
  · rcases hostapdGetAid_cases h sta with heq | ⟨aid, staAid, heq⟩
    · rw [heq]
      exact hno
    · rw [heq]
      exact hno.modify (f := fun s => { s with aid := aid }) fun _ _ => id

theorem exists_mem_of_apGetSta {addr : Addr} (hget : apGetSta h addr = some sta) :
    ∃ s, h.mem sta = some s ∧ s.addr = addr := by
  have hfound := List.find?_some hget
  exact Option.map_eq_some_iff.mp (by simpa [Hapd.addrOf] using hfound)

theorem Quiet.withSta {addr : Addr} {f : StaPtr → Hapd MlmeSta}
    (hf : ∀ sta, (∃ s, h.mem sta = some s) → Quiet h (f sta)) : Quiet h (withSta h addr f) := by
  rw [Ap.withSta]
  split
  · exact .refl h
  rename_i sta hget
  obtain ⟨s, hs, -⟩ := exists_mem_of_apGetSta hget
  exact hf sta ⟨s, hs⟩

theorem Quiet.apStaDisassociate (hsta : ∃ s, h.mem sta = some s) :
    Quiet h (apStaDisassociate h sta) := by
  refine ((Quiet.assign ?_).rearm_of _ hsta).rearm_of _ hsta
  exact fun _ => ⟨rfl, rfl, rfl⟩

theorem Quiet.apStaDeauthenticate (hsta : ∃ s, h.mem sta = some s) :
    Quiet h (apStaDeauthenticate h sta) := by
  refine ((Quiet.assign ?_).rearm_of _ hsta).rearm_of _ hsta
  exact fun _ => ⟨rfl, rfl, rfl⟩

theorem Quiet.apStaStopSaQuery : Quiet h (apStaStopSaQuery h sta) := by
  refine (Quiet.cancel _).trans (.assign ?_)
  exact fun _ => ⟨rfl, rfl, rfl⟩

theorem Quiet.handleDisassoc (hsta : ∃ s, h.mem sta = some s) : Quiet h (handleDisassoc h sta) := by
  have hflags : Quiet h (h.modify sta fun s =>
      { s with flags := { s.flags with assoc := false, assocReqOk := false, authorized := false } }) :=
    .assign fun _ => ⟨rfl, rfl, rfl⟩
  rw [Mlme.handleDisassoc]
  split
  · exact hflags
  split
  · refine (hflags.trans (.assign ?_)).rearm_of _ hsta
    exact fun _ => ⟨rfl, rfl, rfl⟩
  · exact hflags

end Table

section StateMachines

variable {cr : Crypto} {a a' : Auth} {addr : Addr}

theorem setSm_sms_of_ne {other : Addr} (sm : Sm) (h : other ≠ addr) :
    (setSm a addr sm).sms other = a.sms other := by
  simp [setSm, Function.update_of_ne h]

@[simp] theorem setSm_sms_self (sm : Sm) : (setSm a addr sm).sms addr = some sm := by
  simp [setSm]

theorem copyIe_sms (a : Auth) (addr : Addr) (wpaIe : Octets) (ans : IeAnswers) :
    (copyIe a addr wpaIe ans).1.sms = a.sms ∨
      ∃ sm ie, a.sms addr = some sm ∧
        (copyIe a addr wpaIe ans).1.sms = (setSm a addr { sm with wpaIe := ie }).sms := by
  rw [copyIe]
  split
  · exact .inl rfl
  rename_i sm hsm
  split
  · exact .inr ⟨sm, _, hsm, rfl⟩
  · exact .inr ⟨sm, _, hsm, rfl⟩

-- The PMKSA of a state machine after the lookup
def selectedPtr (ans : IeAnswers) : Selected → Option Ptr
  | .cached entry => some entry.ptr
  | .okc _ _ => ans.okc
  | .nothing => none

theorem usePmksa_sms (a : Auth) (addr : Addr) (sm : Sm) (hnone : sm.pmksa = none) (ans : IeAnswers)
    (selected : Selected) :
    (usePmksa a addr sm ans selected).sms =
      (setSm a addr { sm with pmksa := selectedPtr ans selected }).sms := by
  cases selected with
  | cached entry => rfl
  | okc old pmkid =>
    cases hans : ans.okc with
    | none | some ptr =>
      simp only [usePmksa, selectedPtr, hans]
      rfl
  | nothing =>
    rw [usePmksa, selectedPtr, ← hnone]

variable {caches : List Cache} {res : WpaValidateResult}

-- What the request makes of the state machine of its station, and of no other
theorem wpaValidateWpaIe_sms {wpaIe : Octets} {ans : IeAnswers} {sm : Sm} (hsm : a.sms addr = some sm)
    (hres : wpaValidateWpaIe cr caches a addr wpaIe ans = some (a', res)) :
    (∃ sm', negotiate a.conf sm wpaIe = (sm', .inl res) ∧ a'.sms = (setSm a addr sm').sms) ∨
      ∃ sm' pmkids selected ie, negotiate a.conf sm wpaIe = (sm', .inr pmkids) ∧
        selectPmksa cr caches a addr pmkids = some selected ∧
        a'.sms = (setSm a addr { sm' with pmksa := selectedPtr ans selected, wpaIe := ie }).sms := by
  simp only [wpaValidateWpaIe, hsm] at hres
  split at hres
  · rename_i sm' res' hneg
    cases hres
    exact .inl ⟨sm', hneg, rfl⟩
  rename_i sm' pmkids hneg
  obtain ⟨selected, hsel, heq⟩ := Option.map_eq_some_iff.mp hres
  obtain rfl : (copyIe _ addr wpaIe ans).1 = a' := congrArg Prod.fst heq
  have hnone : sm'.pmksa = none := by
    rcases negotiate_cases a.conf sm wpaIe with ⟨_, h⟩ | ⟨_, _, h⟩ | ⟨_, _, _, _, _, h⟩
    · rw [hneg] at h
      cases h
    · rw [hneg] at h
      cases h
    rw [hneg] at h
    cases h
    rfl
  have huse := usePmksa_sms a addr sm' hnone ans selected
  rcases copyIe_sms (usePmksa a addr sm' ans selected) addr wpaIe ans with hcopy |
    ⟨sm'', ie, hsm'', hcopy⟩
  · exact .inr ⟨sm', pmkids, selected, sm'.wpaIe, hneg, hsel, hcopy.trans huse⟩
  rw [huse, setSm_sms_self] at hsm''
  cases hsm''
  refine .inr ⟨sm', pmkids, selected, ie, hneg, hsel, hcopy.trans ?_⟩
  funext other
  by_cases hother : other = addr
  · subst hother
    simp
  · rw [setSm_sms_of_ne _ hother, setSm_sms_of_ne _ hother, huse, setSm_sms_of_ne _ hother]

theorem wpaValidateWpaIe_sms_of_ne {wpaIe : Octets} {ans : IeAnswers} {sm : Sm}
    (hsm : a.sms addr = some sm) (hres : wpaValidateWpaIe cr caches a addr wpaIe ans = some (a', res))
    {other : Addr} (hother : other ≠ addr) : a'.sms other = a.sms other := by
  rcases wpaValidateWpaIe_sms hsm hres with ⟨_, -, h⟩ | ⟨_, _, _, _, -, -, h⟩
  · rw [h, setSm_sms_of_ne _ hother]
  · rw [h, setSm_sms_of_ne _ hother]

theorem wpaValidateWpaIe_isSome {wpaIe : Octets} {ans : IeAnswers} {sm : Sm} (hsm : a.sms addr = some sm)
    (hres : wpaValidateWpaIe cr caches a addr wpaIe ans = some (a', res)) : (a'.sms addr).isSome := by
  rcases wpaValidateWpaIe_sms hsm hres with ⟨_, -, h⟩ | ⟨_, _, _, _, -, -, h⟩
  · rw [h, setSm_sms_self]
    rfl
  · rw [h, setSm_sms_self]
    rfl

theorem wpaAuthStaInit_of_ne {alloc : Bool} {other : Addr} (hother : other ≠ addr) :
    (wpaAuthStaInit a addr alloc).sms other = a.sms other := by
  rw [wpaAuthStaInit]
  split
  · exact setSm_sms_of_ne _ hother
  · rfl

theorem wpaAuthStaInit_of_isSome {alloc : Bool} (h : (a.sms addr).isSome) :
    wpaAuthStaInit a addr alloc = a := by
  rw [wpaAuthStaInit, if_neg]
  cases hsm : a.sms addr with
  | none =>
    rw [hsm] at h
    cases h
  | some sm => simp

theorem wpaAuthStaNoWpa_of_ne {other : Addr} (hother : other ≠ addr) :
    (wpaAuthStaNoWpa a addr).sms other = a.sms other := by
  rw [wpaAuthStaNoWpa]
  split
  · rfl
  · exact setSm_sms_of_ne _ hother

theorem wpaAuthStaNoWpa_isSome (h : (a.sms addr).isSome) :
    ((wpaAuthStaNoWpa a addr).sms addr).isSome := by
  rw [wpaAuthStaNoWpa]
  split
  · exact h
  · simp

end StateMachines

section PmksaCache

variable {cr : Crypto} {a : Auth}

theorem pmksaCacheFreeEntry_isSome (e : Entry) (addr : Addr) :
    ((pmksaCacheFreeEntry a e).sms addr).isSome = (a.sms addr).isSome := by
  simp [pmksaCacheFreeEntry, wpaAuthPmksaFreeCb]

theorem expireEntries_isSome (now : ℤ) (l : List Entry) (a : Auth) (addr : Addr) :
    ((expireEntries now l a).sms addr).isSome = (a.sms addr).isSome := by
  induction l generalizing a with
  | nil => rfl
  | cons e next ih =>
    rw [expireEntries]
    split
    · rw [ih, pmksaCacheFreeEntry_isSome]
    · rfl

theorem pmksaCacheExpire_isSome (now : ℤ) (addr : Addr) :
    ((pmksaCacheExpire now a).sms addr).isSome = (a.sms addr).isSome :=
  expireEntries_isSome now _ a addr

theorem pmksaCacheAuthAdd_isSome (now : ℤ) (alloc : Option Ptr) (pmk : Octets) (aa spa : Addr)
    (sessionTimeout : ℤ) (akmp : KeyMgmt) (addr : Addr) :
    ((pmksaCacheAuthAdd now cr a alloc pmk aa spa sessionTimeout akmp).sms addr).isSome =
      (a.sms addr).isSome := by
  have hreplace (a : Auth) : ((replaceOld a spa).sms addr).isSome = (a.sms addr).isSome := by
    rw [replaceOld]
    split
    · exact pmksaCacheFreeEntry_isSome _ addr
    · rfl
  have hroom (a : Auth) : ((makeRoom a).sms addr).isSome = (a.sms addr).isSome := by
    rw [makeRoom]
    split
    · rfl
    split
    · exact pmksaCacheFreeEntry_isSome _ addr
    · rfl
  unfold pmksaCacheAuthAdd
  split
  · rfl
  cases alloc with
  | none => rfl
  | some ptr => exact (hroom _).trans (hreplace a)

end PmksaCache

section Request

variable {cr : Crypto} {wpsValid : Octets → Bool} {b b' : Bss} {sta : StaPtr} {s : Sta}

theorem copySuppRates_ext (elems : Elems) (s : Sta) :
    ∃ ext, (copySuppRates elems s).1 = { s with ext := ext } ∧ ext.authAlg = s.ext.authAlg := by
  rw [copySuppRates]
  split
  · exact ⟨s.ext, rfl, rfl⟩
  split
  · exact ⟨s.ext, rfl, rfl⟩
  dsimp only
  split
  · exact ⟨_, rfl, rfl⟩
  split
  · exact ⟨_, rfl, rfl⟩
  · exact ⟨_, rfl, rfl⟩

theorem copyStaHtCapab_ext (conf : MlmeConfig) (elems : Elems) (alloc : Bool) (s : Sta) :
    ∃ ext, (copyStaHtCapab conf elems alloc s).1 = { s with ext := ext } ∧
      ext.authAlg = s.ext.authAlg := by
  rw [copyStaHtCapab]
  split
  · exact ⟨_, rfl, rfl⟩
  split
  · exact ⟨s.ext, rfl, rfl⟩
  · exact ⟨_, rfl, rfl⟩

theorem checkCapabilities_ext (conf : MlmeConfig) (elems : Elems) (alloc : Bool) (s : Sta) :
    ∃ ext, (checkCapabilities conf elems alloc s).1 = { s with ext := ext } ∧
      ext.authAlg = s.ext.authAlg := by
  rw [checkCapabilities]
  split
  · exact ⟨s.ext, rfl, rfl⟩
  obtain ⟨ext, hrates, halg⟩ := copySuppRates_ext elems (checkWmm conf elems s)
  split
  · rename_i s₁ hcopy
    rw [hcopy] at hrates
    subst hrates
    obtain ⟨ext', hht, halg'⟩ := copyStaHtCapab_ext conf elems alloc { s with ext := ext }
    have hcheck : { checkWmm conf elems s with ext := ext } = { s with ext := ext } := rfl
    rw [hcheck]
    split
    · rename_i s₂ hcap
      rw [hcap] at hht
      exact ⟨ext', hht, halg'.trans halg⟩
    · exact ⟨ext', hht, halg'.trans halg⟩
  · exact ⟨ext, hrates, halg⟩

theorem checkWps_error {conf : MlmeConfig} {wpa alloc : Bool} {elems : Elems} {ies : Octets}
    {wpaIe : Option Octets} {status : Status}
    (h : checkWps conf wpsValid wpa alloc elems ies wpaIe = .error status) : status = .invalidIe := by
  rw [checkWps] at h
  split at h
  · split at h
    · exact (Except.error.inj h).symm
    · cases h
  split at h
  · cases h
  split at h
  · exact (Except.error.inj h).symm
  · cases h

theorem Quiet.checkSaQuery (h : Hapd MlmeSta) (sta : StaPtr) (now : OsTime) :
    Quiet h (checkSaQuery h sta now) := by
  rw [Mlme.checkSaQuery]
  split
  · exact .refl h
  split
  · exact .apCheckSaQueryTimeout
  · exact .refl h

-- What the checks of a request from the station with an address have done: it is refused, or its
-- protection is what its state machine has.
structure Checked (b b' : Bss) (sta : StaPtr) (addr : Addr) : Prop where
  sent : b'.sent = b.sent
  others : ∀ other, other ≠ addr → b'.auth.sms other = b.auth.sms other
  isSome : (b.auth.sms addr).isSome → (b'.auth.sms addr).isSome
  hapd : Quiet b.hapd b'.hapd ∨
    ∃ h mfp, Quiet b.hapd h ∧ b'.hapd = h.modify sta (fun s => { s with flags.mfp := mfp }) ∧
      (b'.auth.sms addr).isSome

theorem Checked.of_quiet (addr : Addr) {h : Hapd MlmeSta} (hq : Quiet b.hapd h) :
    Checked b { b with hapd := h } sta addr := ⟨rfl, fun _ _ => rfl, id, .inl hq⟩

theorem checkWpaIe_checked {addr : Addr} {wpaIe : Octets} {reassoc : Bool} {ans : AssocAnswers}
    {status : Status} (hres : checkWpaIe cr b sta addr wpaIe reassoc ans = some (b', status)) :
    Checked b b' sta addr := by
  simp only [checkWpaIe] at hres
  split at hres
  · cases hres
    exact .of_quiet addr (.refl _)
  rename_i hsome
  obtain ⟨sm, hsm⟩ : ∃ sm, (wpaAuthStaInit b.auth addr ans.smAlloc).sms addr = some sm :=
    Option.ne_none_iff_exists'.mp (by simpa using hsome)
  split at hres
  · cases hres
  rename_i a res hval
  have hothers (other : Addr) (hother : other ≠ addr) : a.sms other = b.auth.sms other :=
    (wpaValidateWpaIe_sms_of_ne hsm hval hother).trans (wpaAuthStaInit_of_ne hother)
  have hsm' := wpaValidateWpaIe_isSome hsm hval
  split at hres
  · cases hres
    exact ⟨rfl, hothers, fun _ => hsm', .inl (.refl _)⟩
  split at hres
  · cases hres
    exact ⟨rfl, hothers, fun _ => hsm', .inl (.refl _)⟩
  rename_i sm₁ hsm₁
  simp only [checkMfpAssoc] at hres
  have hquiet := Quiet.checkSaQuery b.hapd sta b.now
  split at hres
  · cases hres
    exact ⟨rfl, hothers, fun _ => hsm', .inl (.refl _)⟩
  split at hres
  · cases hres
    refine ⟨rfl, hothers, fun _ => hsm', .inl ?_⟩
    dsimp only
    split
    · exact hquiet.trans .apSaQueryTimer
    · exact hquiet
  · cases hres
    exact ⟨rfl, hothers, fun _ => hsm', .inr ⟨_, _, hquiet, rfl, hsm'⟩⟩

theorem Quiet.capabilities (hs : b.hapd.mem sta = some s) (elems : Elems) (alloc : Bool) :
    Quiet b.hapd (b.hapd.modify sta fun _ => (checkCapabilities b.conf elems alloc s).1) ∧
      Quiet b.hapd (b.hapd.modify sta fun _ =>
        wpsFlags b.conf elems (selectWpaIe b.auth.conf.protos elems)
          (checkCapabilities b.conf elems alloc s).1) := by
  obtain ⟨ext, hext, halg⟩ := checkCapabilities_ext b.conf elems alloc s
  have heq {s' : Sta} (hs' : b.hapd.mem sta = some s') : s' = s :=
    Option.some.inj (hs'.symm.trans hs)
  rw [hext]
  constructor
  · refine .modify fun s' hs' => ?_
    rw [heq hs']
    exact ⟨rfl, rfl, fun hno => halg ▸ hno⟩
  · refine .modify fun s' hs' => ?_
    rw [heq hs']
    exact ⟨rfl, rfl, fun hno => halg ▸ hno⟩

theorem Checked.trans_quiet {addr : Addr} {h : Hapd MlmeSta} (hq : Quiet b.hapd h)
    (hc : Checked { b with hapd := h } b' sta addr) : Checked b b' sta addr := by
  refine ⟨hc.sent, hc.others, hc.isSome, ?_⟩
  rcases hc.hapd with hquiet | ⟨h', mfp, hquiet, heq, hsome⟩
  · exact .inl (hq.trans hquiet)
  · exact .inr ⟨h', mfp, hq.trans hquiet, heq, hsome⟩

theorem checkAssocIes_checked {ies : Octets} {reassoc : Bool} {ans : AssocAnswers} {status : Status}
    (hs : b.hapd.mem sta = some s)
    (hres : checkAssocIes cr wpsValid b sta s ies reassoc ans = some (b', status)) :
    Checked b b' sta s.addr := by
  simp only [checkAssocIes] at hres
  split at hres
  · cases hres
    exact .of_quiet s.addr (.refl _)
  rename_i elems _
  obtain ⟨hcap, hflags⟩ := Quiet.capabilities hs elems ans.htAlloc
  split at hres
  · cases hres
    exact .of_quiet s.addr hcap
  split at hres
  · cases hres
    exact .of_quiet s.addr hflags
  · cases hres
    exact ⟨rfl, fun _ hother => wpaAuthStaNoWpa_of_ne hother, wpaAuthStaNoWpa_isSome, .inl hflags⟩
  · exact .trans_quiet hflags (checkWpaIe_checked hres)

end Request

end WpaSupplicant.Ap.Mlme

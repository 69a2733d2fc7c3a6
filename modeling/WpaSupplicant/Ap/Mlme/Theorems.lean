import WpaSupplicant.Ap.Mlme.Run

namespace WpaSupplicant.Ap.Mlme

open Lib.Octets Lib.Machine KeyData Pmksa

variable {cr : Crypto} {wpsValid : Octets → Bool} {b b' : Bss} {addr : Addr}

-- What was negotiated with a station: the key management suite, the pairwise cipher, the protocol
-- version, management frame protection and the PMKSA
def terms (sm : Sm) : KeyMgmt × Option Cipher × Option Proto × Bool × Option Ptr :=
  (sm.wpaKeyMgmt, sm.pairwise, sm.wpa, sm.mgmtFrameProt, sm.pmksa)

def Protected (b : Bss) (addr : Addr) : Prop :=
  ∃ sta s, b.hapd.mem sta = some s ∧ s.addr = addr ∧ s.flags.mfp = true

def TimedOut (b : Bss) (addr : Addr) : Prop :=
  ∃ sta s, b.hapd.mem sta = some s ∧ s.addr = addr ∧
    (s.saQueryTimedOut = true ∨
      (0 < s.saQueryCount ∧
        b.hapd.conf.assocSaQueryMaxTimeout < saQueryPassed s.saQueryStart b.now))

-- A WPA/RSN IE is refused before a key management suite is taken from it; or it is the one in use,
-- and the IE is refused then, or all else that is taken from it is what is in use.
def SameTerms (cr : Crypto) (caches : List Cache) (a : Auth) (addr : Addr) (sm : Sm) (wpaIe : Octets)
    (ans : IeAnswers) : Prop :=
  ∀ data, ieVersion wpaIe ∈ a.conf.protos → parseIe wpaIe = .ok data →
    data.groupCipher = some a.conf.wpaGroup → data.keyMgmt.filter (· ∈ a.conf.wpaKeyMgmt) ≠ [] →
    pickKeyMgmt (data.keyMgmt.filter (· ∈ a.conf.wpaKeyMgmt)) = sm.wpaKeyMgmt ∧
      (commonPairwise a.conf (ieVersion wpaIe) data ≠ [] →
        checkMfp a.conf data (commonPairwise a.conf (ieVersion wpaIe) data) = none →
        some (if .ccmp ∈ commonPairwise a.conf (ieVersion wpaIe) data then .ccmp else .tkip) =
            sm.pairwise ∧
          some (ieVersion wpaIe) = sm.wpa ∧
          (decide (a.conf.ieee80211w ≠ .noMgmtFrameProtection) && mfpCapable data) =
            sm.mgmtFrameProt ∧
          ∃ selected, selectPmksa cr caches a addr (pmkidList data) = some selected ∧
            selectedPtr ans selected = sm.pmksa)

-- The request passes the tests that come before its WPA/RSN IE.
def Considered (b : Bss) (f : AssocFrame) (ans : AssocAnswers) (s : Sta) (elems : Elems) : Prop :=
  s.flags.auth = true ∧ ans.tkipCountermeasures = false ∧
    f.listenInterval ≤ b.conf.maxListenInterval ∧ ieee80211ParseElems f.ies = some elems ∧
    (checkCapabilities b.conf elems ans.htAlloc s).2 = .success

-- A request that is considered while its station is protected is not let through for WPS, and its
-- WPA/RSN IE has the terms that are in use.
def Spares (cr : Crypto) (wpsValid : Octets → Bool) (b : Bss) : Op → Prop
  | .assoc f ans =>
    ∀ sta s sm elems, b.hapd.mem sta = some s → s.addr = f.sa → s.flags.mfp = true →
      ¬ TimedOut b f.sa → b.auth.sms f.sa = some sm → Considered b f ans s elems →
      match checkWps b.conf wpsValid b.wpa ans.wpsAlloc elems f.ies
        (selectWpaIe b.auth.conf.protos elems) with
      | .error _ => True
      | .ok none => False
      | .ok (some wpaIe) =>
        SameTerms cr (ans.before ++ b.auth.cache :: ans.after) b.auth f.sa sm wpaIe ans.ie
  | _ => True

-- The frames of stations and the reports on the responses, and what happens to SA Query procedures.
-- No station is removed, and the PMKSA cache is changed by requests only.
def Unprotected : Op → Prop
  | .auth _ _ | .assoc _ _ | .assocCb _ _ _ | .saQueryResponse _ | .tick _ => True
  | .fire t _ _ => t.handler = .apSaQueryTimer
  | _ => False

structure Guards (addr : Addr) (b b' : Bss) : Prop where
  stays : Protected b addr → Protected b' addr
  sms : (b'.auth.sms addr).map terms = (b.auth.sms addr).map terms
  sent : ∃ new, b'.sent = new ++ b.sent ∧ ∀ reassoc, .assocResp addr reassoc .success ∉ new

theorem Guards.refl (addr : Addr) (b : Bss) : Guards addr b b := ⟨id, rfl, [], rfl, by simp⟩

theorem Guards.trans {b'' : Bss} (h : Guards addr b b') (h' : Guards addr b' b'') :
    Guards addr b b'' := by
  obtain ⟨new, hnew, hno⟩ := h.sent
  obtain ⟨new', hnew', hno'⟩ := h'.sent
  refine ⟨h'.stays ∘ h.stays, h'.sms.trans h.sms, new' ++ new, ?_, fun reassoc hmem => ?_⟩
  · rw [hnew', hnew, List.append_assoc]
  · rcases List.mem_append.mp hmem with hmem | hmem
    · exact hno' reassoc hmem
    · exact hno reassoc hmem

theorem Quiet.protected {h h' : Hapd MlmeSta} (hq : Quiet h h') {auth auth' : Auth} :
    Protected { b with hapd := h, auth := auth } addr →
      Protected { b' with hapd := h', auth := auth' } addr := by
  rintro ⟨sta, s, hs, haddr, hmfp⟩
  obtain ⟨s', hs', hcore⟩ := hq.forth hs
  exact ⟨sta, s', hs', (congrArg Prod.fst hcore).trans haddr, (congrArg Prod.snd hcore).trans hmfp⟩

theorem Guards.of_quiet (hq : Quiet b.hapd b'.hapd)
    (hsms : (b'.auth.sms addr).map terms = (b.auth.sms addr).map terms)
    (hsent : b'.sent = b.sent ∨ ∃ frame, b'.sent = frame :: b.sent ∧
      ∀ reassoc, frame ≠ .assocResp addr reassoc .success) : Guards addr b b' := by
  refine ⟨hq.protected, hsms, ?_⟩
  rcases hsent with hsame | ⟨frame, hframe, hne⟩
  · exact ⟨[], hsame, by simp⟩
  · refine ⟨[frame], hframe, fun reassoc hmem => ?_⟩
    exact hne reassoc (List.mem_singleton.mp hmem).symm

section Terms

variable {a a' : Auth} {sm : Sm} {caches : List Cache} {wpaIe : Octets} {ans : IeAnswers}
  {res : WpaValidateResult}

-- The IE is refused before anything is assigned; or it is well formed and has a suite in common,
-- and it is refused then or gives all the terms.
theorem negotiate_data (conf : WpaAuthConfig) (sm : Sm) (wpaIe : Octets) :
    (∃ res, negotiate conf sm wpaIe = (sm, .inl res)) ∨
      ∃ data, ieVersion wpaIe ∈ conf.protos ∧ parseIe wpaIe = .ok data ∧
        data.groupCipher = some conf.wpaGroup ∧ data.keyMgmt.filter (· ∈ conf.wpaKeyMgmt) ≠ [] ∧
        ((∃ res, negotiate conf sm wpaIe =
            ({ sm with wpaKeyMgmt := pickKeyMgmt (data.keyMgmt.filter (· ∈ conf.wpaKeyMgmt)) },
              .inl res)) ∨
          (commonPairwise conf (ieVersion wpaIe) data ≠ [] ∧
            checkMfp conf data (commonPairwise conf (ieVersion wpaIe) data) = none ∧
            negotiate conf sm wpaIe =
              ({ sm with
                  wpaKeyMgmt := pickKeyMgmt (data.keyMgmt.filter (· ∈ conf.wpaKeyMgmt))
                  mgmtFrameProt :=
                    conf.ieee80211w ≠ .noMgmtFrameProtection && mfpCapable data
                  pairwise := some (if .ccmp ∈ commonPairwise conf (ieVersion wpaIe) data then .ccmp
                    else .tkip)
                  wpa := some (ieVersion wpaIe)
                  pmksa := none },
                .inr (pmkidList data)))) := by
  simp only [negotiate]
  split
  · exact .inl ⟨_, rfl⟩
  split
  · exact .inl ⟨_, rfl⟩
  rename_i hversion
  split
  · exact .inl ⟨_, rfl⟩
  rename_i data hparse
  split
  · exact .inl ⟨_, rfl⟩
  rename_i hgroup
  split
  · exact .inl ⟨_, rfl⟩
  rename_i hakm
  refine .inr ⟨data, not_not.mp hversion, hparse, not_not.mp hgroup, hakm, ?_⟩
  split
  · exact .inl ⟨_, rfl⟩
  rename_i hciphers
  split
  · exact .inl ⟨_, rfl⟩
  · rename_i hmfp
    exact .inr ⟨hciphers, hmfp, rfl⟩

theorem wpaValidateWpaIe_terms (hsm : a.sms addr = some sm)
    (hsame : SameTerms cr caches a addr sm wpaIe ans)
    (hres : wpaValidateWpaIe cr caches a addr wpaIe ans = some (a', res)) :
    (a'.sms addr).map terms = some (terms sm) := by
  rcases wpaValidateWpaIe_sms hsm hres with ⟨sm', hneg, hsms⟩ |
    ⟨sm', pmkids, selected, ie, hneg, hsel, hsms⟩
  · rw [hsms, setSm_sms_self, Option.map_some]
    rcases negotiate_data a.conf sm wpaIe with ⟨_, heq⟩ |
      ⟨data, hversion, hparse, hgroup, hakm, ⟨_, heq⟩ | ⟨-, -, heq⟩⟩
    · rw [hneg] at heq
      cases heq
      rfl
    · obtain ⟨hkey, -⟩ := hsame data hversion hparse hgroup hakm
      rw [hneg] at heq
      cases heq
      simp only [terms, hkey]
    · rw [hneg] at heq
      cases heq
  · rw [hsms, setSm_sms_self, Option.map_some]
    rcases negotiate_data a.conf sm wpaIe with ⟨_, heq⟩ |
      ⟨data, hversion, hparse, hgroup, hakm, ⟨_, heq⟩ | ⟨hciphers, hmfp, heq⟩⟩
    · rw [hneg] at heq
      cases heq
    · rw [hneg] at heq
      cases heq
    obtain ⟨hkey, hrest⟩ := hsame data hversion hparse hgroup hakm
    obtain ⟨hpairwise, hwpa, hprot, selected', hsel', hptr⟩ := hrest hciphers hmfp
    rw [hneg] at heq
    cases heq
    obtain rfl : selected = selected' := Option.some.inj (hsel.symm.trans hsel')
    simp only [terms, hkey, hpairwise, hwpa, hprot, hptr]

theorem wpaValidateWpaIe_returns (hsm : a.sms addr = some sm)
    (hsame : SameTerms cr caches a addr sm wpaIe ans) :
    ∃ r, wpaValidateWpaIe cr caches a addr wpaIe ans = some r := by
  simp only [wpaValidateWpaIe, hsm]
  rcases negotiate_data a.conf sm wpaIe with ⟨_, heq⟩ |
    ⟨data, hversion, hparse, hgroup, hakm, ⟨_, heq⟩ | ⟨hciphers, hmfp, heq⟩⟩
  · rw [heq]
    exact ⟨_, rfl⟩
  · rw [heq]
    exact ⟨_, rfl⟩
  obtain ⟨-, -, -, -, selected, hsel, -⟩ := hsame data hversion hparse hgroup hakm |>.imp_right
    fun hrest => hrest hciphers hmfp
  rw [heq]
  simp only [hsel, Option.map_some]
  exact ⟨_, rfl⟩

end Terms

section Request

variable {sta : StaPtr} {s : Sta} {sm : Sm} {ies : Octets} (reassoc : Bool) {ans : AssocAnswers}

theorem checkMfpAssoc_guarded (sm : Sm) (ans : AssocAnswers) (hs : b.hapd.mem sta = some s) (hmfp : s.flags.mfp = true)
    (halg : s.ext.authAlg ≠ wlanAuthFt) (hflag : s.saQueryTimedOut = false)
    (htime : 0 < s.saQueryCount →
      saQueryPassed s.saQueryStart b.now ≤ b.hapd.conf.assocSaQueryMaxTimeout) :
    Quiet b.hapd (checkMfpAssoc b sta sm reassoc ans).1.hapd ∧
      (checkMfpAssoc b sta sm reassoc ans).1.auth = b.auth ∧
      (checkMfpAssoc b sta sm reassoc ans).1.sent = b.sent ∧
      (checkMfpAssoc b sta sm reassoc ans).2 = .assocRejectedTemporarily := by
  have hguards : saQueryGuards s = true := by simp [saQueryGuards, hmfp, hflag]
  have hcheck : checkSaQuery b.hapd sta b.now = b.hapd := by
    simp only [checkSaQuery, hs, hguards, Bool.true_and]
    split
    · rename_i hcount
      have hle := htime (by simpa using hcount)
      simp only [apCheckSaQueryTimeout, hs, if_neg (Nat.not_lt.mpr hle)]
    · rfl
  have hcond : (saQueryGuards s && (!reassoc || decide (s.ext.authAlg ≠ wlanAuthFt))) = true := by
    simp [hguards, halg]
  simp only [checkMfpAssoc, hcheck, hs, hcond, if_true]
  refine ⟨?_, trivial, trivial, trivial⟩
  split
  · exact .apSaQueryTimer
  · exact .refl _

theorem checkWpaIe_guarded {wpaIe : Octets} (hs : b.hapd.mem sta = some s) (hmfp : s.flags.mfp = true)
    (halg : s.ext.authAlg ≠ wlanAuthFt) (hflag : s.saQueryTimedOut = false)
    (htime : 0 < s.saQueryCount →
      saQueryPassed s.saQueryStart b.now ≤ b.hapd.conf.assocSaQueryMaxTimeout)
    (hsm : b.auth.sms addr = some sm)
    (hsame : SameTerms cr (ans.before ++ b.auth.cache :: ans.after) b.auth addr sm wpaIe ans.ie) :
    ∃ b₁ status, checkWpaIe cr b sta addr wpaIe reassoc ans = some (b₁, status) ∧
      status ≠ .success ∧ Quiet b.hapd b₁.hapd ∧
      (b₁.auth.sms addr).map terms = some (terms sm) ∧ b₁.sent = b.sent := by
  have hinit : wpaAuthStaInit b.auth addr ans.smAlloc = b.auth :=
    wpaAuthStaInit_of_isSome (by rw [hsm]; rfl)
  obtain ⟨⟨a, res⟩, hval⟩ := wpaValidateWpaIe_returns hsm hsame
  have hterms := wpaValidateWpaIe_terms hsm hsame hval
  obtain ⟨sm', hsm', -⟩ := Option.map_eq_some_iff.mp hterms
  simp only [checkWpaIe, hinit, hsm, Option.isNone_some, Bool.false_eq_true, if_false, hval, hsm']
  split
  · rename_i hne
    exact ⟨_, _, rfl, hne, .refl _, hterms, rfl⟩
  obtain ⟨hq, hauth, hsent, hstatus⟩ :=
    checkMfpAssoc_guarded (b := { b with auth := a }) reassoc sm' ans hs hmfp halg hflag htime
  refine ⟨(checkMfpAssoc { b with auth := a } sta sm' reassoc ans).1, .assocRejectedTemporarily,
    ?_, by simp, hq, ?_, hsent⟩
  · rw [← hstatus]
  · rw [hauth]
    exact hterms

theorem checkAssocIes_guarded (hinv : Inv b) (hs : b.hapd.mem sta = some s)
    (hmfp : s.flags.mfp = true) (hnot : ¬ TimedOut b s.addr) (hsm : b.auth.sms s.addr = some sm)
    (hspares : ∀ elems r, ieee80211ParseElems ies = some elems →
      (checkCapabilities b.conf elems ans.htAlloc s).2 = .success →
      checkWps b.conf wpsValid b.wpa ans.wpsAlloc elems ies (selectWpaIe b.auth.conf.protos elems) =
        .ok r →
      ∃ wpaIe, r = some wpaIe ∧
        SameTerms cr (ans.before ++ b.auth.cache :: ans.after) b.auth s.addr sm wpaIe ans.ie) :
    ∃ b₁ status, checkAssocIes cr wpsValid b sta s ies reassoc ans = some (b₁, status) ∧
      status ≠ .success ∧ Quiet b.hapd b₁.hapd ∧
      (b₁.auth.sms s.addr).map terms = some (terms sm) ∧ b₁.sent = b.sent := by
  have hterms : (b.auth.sms s.addr).map terms = some (terms sm) := by rw [hsm, Option.map_some]
  simp only [checkAssocIes]
  cases hparse : ieee80211ParseElems ies with
  | none => exact ⟨b, _, rfl, by simp, .refl _, hterms, rfl⟩
  | some elems =>
    obtain ⟨hcap, hflags⟩ := Quiet.capabilities hs elems ans.htAlloc
    dsimp only
    split
    · rename_i hne
      exact ⟨_, _, rfl, hne, hcap, hterms, rfl⟩
    rename_i hsuccess
    have hwps (f : Sta → Sta) : checkWps (b.modify sta f).conf wpsValid (b.modify sta f).wpa
        ans.wpsAlloc elems ies (selectWpaIe b.auth.conf.protos elems) =
        checkWps b.conf wpsValid b.wpa ans.wpsAlloc elems ies
          (selectWpaIe b.auth.conf.protos elems) := rfl
    rw [hwps]
    cases hr : checkWps b.conf wpsValid b.wpa ans.wpsAlloc elems ies
      (selectWpaIe b.auth.conf.protos elems) with
    | error status =>
      refine ⟨_, status, rfl, ?_, hflags, hterms, rfl⟩
      rw [checkWps_error hr]
      simp
    | ok r =>
      obtain ⟨wpaIe, rfl, hsame⟩ := hspares elems r hparse (not_not.mp hsuccess) hr
      obtain ⟨ext, hext, halg⟩ := checkCapabilities_ext b.conf elems ans.htAlloc s
      have hflag : s.saQueryTimedOut = false := by
        cases hflag : s.saQueryTimedOut with
        | false => rfl
        | true => exact absurd ⟨sta, s, hs, rfl, .inl hflag⟩ hnot
      have htime : 0 < s.saQueryCount →
          saQueryPassed s.saQueryStart b.now ≤ b.hapd.conf.assocSaQueryMaxTimeout := by
        intro hcount
        by_contra hlt
        exact hnot ⟨sta, s, hs, rfl, .inr ⟨hcount, Nat.lt_of_not_le hlt⟩⟩
      have hno : ext.authAlg ≠ wlanAuthFt := by
        rw [halg]
        exact hinv.noFt sta s hs
      rw [hext] at hflags ⊢
      have hmem : (b.hapd.modify sta fun _ => wpsFlags b.conf elems
          (selectWpaIe b.auth.conf.protos elems) { s with ext := ext }).mem sta =
          some (wpsFlags b.conf elems (selectWpaIe b.auth.conf.protos elems)
            { s with ext := ext }) := by
        simp [Hapd.modify, hs]
      obtain ⟨b₁, status, hcheck, hne, hq, hb₁, hsent⟩ :=
        checkWpaIe_guarded reassoc
          (b := b.modify sta fun _ => wpsFlags b.conf elems
            (selectWpaIe b.auth.conf.protos elems) { s with ext := ext })
          hmem hmfp hno hflag htime hsm hsame
      exact ⟨b₁, status, hcheck, hne, hflags.trans hq, hb₁, hsent⟩

theorem handleAssoc_guarded {f : AssocFrame} (hinv : Inv b) (hprot : Protected b f.sa)
    (hnot : ¬ TimedOut b f.sa) (hspares : Spares cr wpsValid b (.assoc f ans)) :
    ∃ b' frame, handleAssoc cr wpsValid b f ans = some b' ∧ Quiet b.hapd b'.hapd ∧
      (b'.auth.sms f.sa).map terms = (b.auth.sms f.sa).map terms ∧ b'.sent = frame :: b.sent ∧
      (frame = .deauth f.sa ∨
        ∃ status, status ≠ .success ∧ frame = .assocResp f.sa f.reassoc status) := by
  obtain ⟨sta, s, hs, haddr, hmfp⟩ := hprot
  have hget : apGetSta b.hapd f.sa = some sta := hinv.table.apGetSta_eq_some.2 ⟨s, hs, haddr⟩
  obtain ⟨sm, hsm⟩ := Option.isSome_iff_exists.mp (hinv.sm sta s hs hmfp)
  rw [haddr] at hsm
  simp only [handleAssoc, hget, hs]
  split
  · exact ⟨_, _, rfl, .refl _, rfl, rfl, .inl rfl⟩
  rename_i hauth
  split
  · exact ⟨_, _, rfl, .refl _, rfl, rfl, .inr ⟨_, by simp, rfl⟩⟩
  rename_i htkip
  split
  · exact ⟨_, _, rfl, .refl _, rfl, rfl, .inr ⟨_, by simp, rfl⟩⟩
  rename_i hlisten
  have hcond (elems : Elems) (r : Option Octets) (hparse : ieee80211ParseElems f.ies = some elems)
      (hcap : (checkCapabilities b.conf elems ans.htAlloc s).2 = .success)
      (hr : checkWps b.conf wpsValid b.wpa ans.wpsAlloc elems f.ies
        (selectWpaIe b.auth.conf.protos elems) = .ok r) :
      ∃ wpaIe, r = some wpaIe ∧
        SameTerms cr (ans.before ++ b.auth.cache :: ans.after) b.auth f.sa sm wpaIe ans.ie := by
    have hie := hspares sta s sm elems hs haddr hmfp hnot hsm
      ⟨by simpa using hauth, by simpa using htkip, Nat.le_of_not_lt hlisten, hparse, hcap⟩
    rw [hr] at hie
    cases r with
    | none => exact hie.elim
    | some wpaIe => exact ⟨wpaIe, rfl, hie⟩
  rw [← haddr] at hnot hsm hcond
  obtain ⟨b₁, status, hcheck, hne, hq, hterms, hsent⟩ :=
    checkAssocIes_guarded f.reassoc hinv hs hmfp hnot hsm hcond
  rw [haddr] at hsm
  rw [haddr] at hterms
  refine ⟨b₁.send (.assocResp f.sa f.reassoc status), _, ?_, hq, ?_, ?_, .inr ⟨status, hne, rfl⟩⟩
  · rw [hcheck]
    cases status with
    | success => exact absurd rfl hne
    | _ => rfl
  · rw [hsm]
    exact hterms
  · exact congrArg (_ :: ·) hsent

theorem handleAssoc_other {f : AssocFrame} (hother : f.sa ≠ addr)
    (hres : handleAssoc cr wpsValid b f ans = some b') : Guards addr b b' := by
  rcases handleAssoc_cases hres with ⟨frame, rfl, hframe⟩ |
    ⟨sta, s, b₁, status, hs, haddr, -, hcheck, hend⟩
  · exact .of_quiet (.refl _) rfl (.inr ⟨frame, rfl, fun reassoc => hframe addr reassoc⟩)
  have hc := checkAssocIes_checked hs hcheck
  rw [haddr] at hc
  have hb₁ : Guards addr b b₁ := by
    refine ⟨fun hprot => ?_, by rw [hc.others addr hother.symm], [], hc.sent, by simp⟩
    rcases hc.hapd with hq | ⟨h, mfp, hq, heq, -⟩
    · exact hq.protected hprot
    obtain ⟨p, t, ht, htaddr, htmfp⟩ := hprot
    obtain ⟨t', ht', hcore⟩ := hq.forth ht
    have hp : p ≠ sta := by
      rintro rfl
      obtain rfl : s = t := Option.some.inj (hs.symm.trans ht)
      exact hother (haddr.symm.trans htaddr)
    refine ⟨p, t', ?_, (congrArg Prod.fst hcore).trans htaddr,
      (congrArg Prod.snd hcore).trans htmfp⟩
    rw [heq]
    simpa [Hapd.modify, Function.update_of_ne hp] using ht'
  refine hb₁.trans ?_
  rcases hend with ⟨-, rfl⟩ | ⟨-, rfl⟩
  · obtain ⟨hq, hauth, frame, hframe, hda⟩ := assocOk_quiet b₁ sta f
    refine .of_quiet hq (by rw [hauth]) (.inr ⟨frame, hframe, fun reassoc heq => ?_⟩)
    exact hother (hda addr reassoc .success heq).symm
  · refine .of_quiet (.refl _) rfl (.inr ⟨_, rfl, fun reassoc heq => ?_⟩)
    exact hother (Sent.assocResp.inj heq).1

end Request

theorem handleAuth_guards (hinv : Inv b) (f : AuthFrame) (ans : AuthAnswers) :
    Guards addr b (handleAuth b f ans) := by
  obtain ⟨hapd, hor, hq, hauth, hsent⟩ := handleAuth_cases b f ans
  have hstays : Protected b addr → Protected { b with hapd := hapd } addr := by
    rintro ⟨sta, s, hs, haddr, hmfp⟩
    rcases hor with rfl | rfl
    · exact ⟨sta, s, hs, haddr, hmfp⟩
    · exact ⟨sta, s, apStaAdd_forth hinv.table f.sa ans.alloc hs, haddr, hmfp⟩
  refine ⟨hq.protected ∘ hstays, by rw [hauth], ?_⟩
  rcases hsent with hsame | ⟨status, hframe⟩
  · exact ⟨[], hsame, by simp⟩
  · exact ⟨[.auth f.sa f.authAlg (f.transaction + 1) status], hframe, by simp⟩

theorem exec_guards (hinv : Inv b) (hprot : Protected b addr) {op : Op}
    (hspares : Spares cr wpsValid b op) (hop : Unprotected op) (hnot : ¬ TimedOut b addr) :
    Guards addr b (exec cr wpsValid b op) := by
  unfold exec
  split
  · exact .refl addr b
  cases op with
  | auth f ans => exact handleAuth_guards hinv f ans
  | assoc f ans =>
    by_cases hsa : f.sa = addr
    · subst hsa
      obtain ⟨b', frame, hres, hq, hterms, hsent, hframe⟩ :=
        handleAssoc_guarded hinv hprot hnot hspares
      dsimp only
      rw [hres]
      refine .of_quiet hq hterms (.inr ⟨frame, hsent, fun reassoc heq => ?_⟩)
      rcases hframe with rfl | ⟨status, hne, rfl⟩
      · cases heq
      · exact hne (Sent.assocResp.inj heq).2.2
    · dsimp only
      cases hres : handleAssoc cr wpsValid b f ans with
      | none => exact .of_quiet (.refl _) rfl (.inl rfl)
      | some b' => exact handleAssoc_other hsa hres
  | assocCb da status added =>
    obtain ⟨hq, hauth, hsent⟩ := handleAssocCb_quiet b da status added
    exact .of_quiet hq (by rw [hauth]) (.inl hsent)
  | saQueryResponse sa =>
    exact .of_quiet (.withSta fun _ _ => .apStaStopSaQuery) rfl (.inl rfl)
  | tick now => exact .of_quiet (.refl _) rfl (.inl rfl)
  | fire t inactiveSec alloc =>
    dsimp only
    split
    · have hquiet : Quiet b.hapd (fireTimer { b.hapd with timers := b.hapd.timers.erase t } t
          inactiveSec b.now alloc) := by
        have herase : Quiet b.hapd { b.hapd with timers := b.hapd.timers.erase t } :=
          ⟨fun hinv => hinv.erase t, fun _ => rfl, id⟩
        refine herase.trans ?_
        rw [fireTimer, show t.handler = .apSaQueryTimer from hop]
        exact .apSaQueryTimer
      refine .of_quiet hquiet ?_ (.inl rfl)
      -- The station is still there, and so is its state machine.
      obtain ⟨sta, s, hs, haddr, -⟩ := hprot
      obtain ⟨s', hs', hcore⟩ := hquiet.forth hs
      have hget := (hquiet.inv hinv.table).apGetSta_eq_some.mpr
        ⟨s', hs', (congrArg Prod.fst hcore).trans haddr⟩
      simp only [Bss.deinit, hget, Option.isSome_some, if_true]
    · exact .refl addr b
  | disassoc sa => cases hop
  | deauth sa => cases hop
  | apStaDisassociate addr => cases hop
  | apStaDeauthenticate addr => cases hop
  | pmksaAdd alloc pmk spa sessionTimeout akmp => cases hop
  | pmksaExpire => cases hop

-- As long as no SA Query procedure for a station with management frame protection has timed out, no
-- frames make a request of it accepted, remove its WPA state or change what was negotiated, where its
-- requests are not let through for WPS and have the terms that are in use.
theorem sa_query_protects {start : Bss} (hstart : start.Initial)
    (hrun : Runs (exec cr wpsValid) (Spares cr wpsValid) start b) (hprot : Protected b addr)
    (hframes : Runs (exec cr wpsValid)
      (fun b op => Spares cr wpsValid b op ∧ Unprotected op ∧ ¬ TimedOut b addr) b b') :
    (Protected b' addr ∧ (b.auth.sms addr).isSome ∧
        (b'.auth.sms addr).map terms = (b.auth.sms addr).map terms ∧
        ∃ new, b'.sent = new ++ b.sent ∧ ∀ reassoc, .assocResp addr reassoc .success ∉ new) ∧
      ∀ f ans, f.sa = addr → ¬ TimedOut b' addr → b'.hung = false →
        Spares cr wpsValid b' (.assoc f ans) →
        ∃ frame, (exec cr wpsValid b' (.assoc f ans)).sent = frame :: b'.sent ∧
          (frame = .deauth addr ∨
            ∃ status, status ≠ .success ∧ frame = .assocResp addr f.reassoc status) := by
  have hinv : Inv b := hrun.rule (Inv.initial hstart) fun _ op hs _ => hs.exec op
  obtain ⟨hinv', hguards⟩ : Inv b' ∧ Guards addr b b' := by
    refine hframes.rule (I := fun b' => Inv b' ∧ Guards addr b b') ⟨hinv, .refl addr b⟩ ?_
    rintro b₁ op ⟨hinv₁, hguards₁⟩ ⟨hspares, hop, hnot⟩
    exact ⟨hinv₁.exec op,
      hguards₁.trans (exec_guards hinv₁ (hguards₁.stays hprot) hspares hop hnot)⟩
  refine ⟨⟨hguards.stays hprot, ?_, hguards.sms, hguards.sent⟩, ?_⟩
  · obtain ⟨sta, s, hs, rfl, hmfp⟩ := hprot
    exact hinv.sm sta s hs hmfp
  · rintro f ans rfl hnot hhung hspares
    obtain ⟨b'', frame, hres, -, -, hsent, hframe⟩ :=
      handleAssoc_guarded hinv' (hguards.stays hprot) hnot hspares
    refine ⟨frame, ?_, hframe⟩
    simp only [exec, hhung, Bool.false_eq_true, if_false, hres, Option.getD_some]
    exact hsent

def staOf (b : Bss) (addr : Addr) : Option Sta := (apGetSta b.hapd addr).bind b.hapd.mem

theorem Inv.staOf_eq (hinv : Inv b) {sta : StaPtr} {s : Sta} (hs : b.hapd.mem sta = some s)
    (haddr : s.addr = addr) : staOf b addr = some s := by
  rw [staOf, hinv.table.apGetSta_eq_some.2 ⟨s, hs, haddr⟩]
  exact hs

theorem protected_of_staOf (h : (staOf b addr).any (fun s => s.flags.mfp) = true) :
    Protected b addr := by
  cases hget : apGetSta b.hapd addr with
  | none => simp [staOf, hget] at h
  | some sta =>
    obtain ⟨s, hs, haddr⟩ := exists_mem_of_apGetSta hget
    refine ⟨sta, s, hs, haddr, ?_⟩
    simpa [staOf, hget, hs] using h

theorem Inv.not_timedOut (hinv : Inv b)
    (h : (staOf b addr).all (fun s => !s.saQueryTimedOut && s.saQueryCount = 0) = true) :
    ¬ TimedOut b addr := by
  rintro ⟨sta, s, hs, haddr, hout⟩
  rw [hinv.staOf_eq hs haddr] at h
  rcases hout with hflag | ⟨hcount, -⟩
  · simp [hflag] at h
  · have hzero : s.saQueryCount = 0 := by simp_all
    exact absurd hzero hcount.ne'

theorem Inv.spares_of_unprotected (hinv : Inv b) (f : AssocFrame) (ans : AssocAnswers)
    (h : (staOf b f.sa).all (fun s => !s.flags.mfp) = true) :
    Spares cr wpsValid b (.assoc f ans) := by
  intro sta s sm elems hs haddr hmfp
  rw [hinv.staOf_eq hs haddr] at h
  simp [hmfp] at h

def sampleBss (wpsState : Bool) : Bss where
  conf := { ownAddr := 1, ssid := [116, 101, 115, 116], wpsState := wpsState }
  hapd := Hapd.initial {}
  auth :=
    { addr := 1
      conf :=
        { protos := [.rsn], wpaKeyMgmt := [.psk, .pskSha256], wpaPairwise := [], wpaGroup := .ccmp,
          rsnPairwise := [.ccmp], ieee80211w := .optional } }

theorem sampleBss_initial (wpsState : Bool) : (sampleBss wpsState).Initial := ⟨rfl, fun _ => rfl⟩

def sampleSta : Addr := 0x020000000005

def sampleAuth : Op := .auth { sa := sampleSta, authAlg := wlanAuthOpen, transaction := 1 } {}

def basicIes : Octets := [0, 4, 116, 101, 115, 116, 1, 1, 2]

def sampleRsnIe : Octets := [1, 0, 0, 15, 172, 4, 1, 0, 0, 15, 172, 4, 1, 0, 0, 15, 172, 2, 0x80, 0]

def sampleRequest : AssocFrame := { sa := sampleSta, ies := basicIes ++ elem eidRsn sampleRsnIe }

def sampleJoin : List Op :=
  [sampleAuth, .assoc sampleRequest {}, .assocCb sampleSta .success true]

def sampleJoined (wpsState : Bool) : Bss :=
  sampleJoin.foldl (exec .transparent fun _ => true) (sampleBss wpsState)

theorem sampleJoined_runs (wpsState : Bool) :
    Runs (exec .transparent fun _ => true) (Spares .transparent fun _ => true) (sampleBss wpsState)
      (sampleJoined wpsState) := by
  refine Runs.of_list sampleJoin ⟨trivial, ?_, trivial, trivial⟩
  have hinv : Inv (exec .transparent (fun _ => true) (sampleBss wpsState) sampleAuth) :=
    (Inv.initial (sampleBss_initial wpsState)).exec _
  refine hinv.spares_of_unprotected sampleRequest {} ?_
  cases wpsState <;> decide

theorem sampleJoined_inv (wpsState : Bool) : Inv (sampleJoined wpsState) :=
  (sampleJoined_runs wpsState).rule (Inv.initial (sampleBss_initial wpsState)) fun _ op hs _ => hs.exec op

theorem sampleJoined_protected (wpsState : Bool) :
    Protected (sampleJoined wpsState) sampleSta ∧ ¬ TimedOut (sampleJoined wpsState) sampleSta := by
  refine ⟨protected_of_staOf ?_, (sampleJoined_inv wpsState).not_timedOut ?_⟩
  · cases wpsState <;> decide
  · cases wpsState <;> decide

theorem sampleRequest_spares :
    Spares .transparent (fun _ => true) (sampleJoined false) (.assoc sampleRequest {}) := by
  intro sta s sm elems _ _ _ _ hsm hcons
  have helems : ieee80211ParseElems sampleRequest.ies = some
      { ssid := some [116, 101, 115, 116], suppRates := some [2], rsnIe := some sampleRsnIe } := by
    decide
  obtain rfl := Option.some.inj (helems.symm.trans hcons.2.2.2.1)
  have hwps : (sampleJoined false).conf.wpsState = false := by decide
  have hconf : (sampleJoined false).auth.conf = (sampleBss false).auth.conf := by decide
  have hokc : (sampleJoined false).auth.okc = false := by decide
  have hterms : ((sampleJoined false).auth.sms sampleSta).map terms =
      some (.psk, some .ccmp, some .rsn, true, none) := by decide
  obtain ⟨sm', hsm', hterms⟩ := Option.map_eq_some_iff.mp hterms
  obtain rfl : sm = sm' := Option.some.inj (hsm.symm.trans hsm')
  simp only [checkWps, hwps, Bool.false_and, Bool.false_eq_true, if_false, selectWpaIe, hconf,
    sampleBss, List.mem_singleton, if_true, Option.isNone_some, Bool.and_false]
  intro data _ hparse _ _
  have hdata : (parseIe (elem eidRsn sampleRsnIe)).toOption =
      some { keyMgmt := [.psk], capabilities := 128 } := by decide
  rw [hparse] at hdata
  obtain rfl := Option.some.inj hdata
  simp only [terms, Prod.mk.injEq] at hterms
  obtain ⟨hkey, hpairwise, hwpa, hprot, hpmksa⟩ := hterms
  rw [hconf, hkey, hpairwise, hwpa, hprot, hpmksa]
  refine ⟨by decide, fun _ _ => ⟨by decide, by decide, by decide,
    .nothing, ?_, rfl⟩⟩
  simp [selectPmksa, pmkidList, hokc]

theorem sa_query_protects_sample :
    let b := sampleJoined false
    Protected b sampleSta ∧
      ∃ frame, (exec .transparent (fun _ => true) b (.assoc sampleRequest {})).sent = frame :: b.sent ∧
        (frame = .deauth sampleSta ∨
          ∃ status, status ≠ .success ∧ frame = .assocResp sampleSta false status) := by
  obtain ⟨hprot, hnot⟩ := sampleJoined_protected false
  have hresult := sa_query_protects (sampleBss_initial false) (sampleJoined_runs false) hprot .init
  exact ⟨hresult.1.1, hresult.2 sampleRequest {} rfl hnot (by decide) sampleRequest_spares⟩

-- The station is associated with management frame protection; a request without an RSN IE is
-- accepted where WPS is in use, and the WPA state of the station is cleared.
theorem sa_query_bypassed :
    let b := sampleJoined true
    let b' := exec .transparent (fun _ => true) b (.assoc { sa := sampleSta, ies := basicIes } {})
    Runs (exec Crypto.transparent fun _ => true) (fun _ _ => True) (sampleBss true) b ∧
      Protected b sampleSta ∧
      Runs (exec Crypto.transparent fun _ => true)
        (fun b op => Unprotected op ∧ ¬ TimedOut b sampleSta) b b' ∧
      b'.sent = .assocResp sampleSta false .success :: b.sent ∧
      (b.auth.sms sampleSta).map Sm.wpaKeyMgmt = some .psk ∧
      (b'.auth.sms sampleSta).map Sm.wpaKeyMgmt = some .unset := by
  obtain ⟨hprot, hnot⟩ := sampleJoined_protected true
  refine ⟨Runs.of_list sampleJoin ⟨trivial, trivial, trivial, trivial⟩, hprot, .step _ .init ⟨trivial, hnot⟩,
    ?_, ?_, ?_⟩
  · decide
  · decide
  · decide

-- Without WPS: a request with another suite and without protection is refused, but what was
-- negotiated is changed.
example :
    let b := sampleJoined false
    let ies := basicIes ++
      elem eidRsn [1, 0, 0, 15, 172, 4, 1, 0, 0, 15, 172, 4, 1, 0, 0, 15, 172, 6, 0, 0]
    let b' := exec Crypto.transparent (fun _ => true) b (.assoc { sa := sampleSta, ies := ies } {})
    b'.sent = .assocResp sampleSta false .assocRejectedTemporarily :: b.sent ∧
      (b.auth.sms sampleSta).map terms = some (.psk, some .ccmp, some .rsn, true, none) ∧
      (b'.auth.sms sampleSta).map terms = some (.pskSha256, some .ccmp, some .rsn, false, none) :=
  ⟨by decide, by decide, by decide⟩

end WpaSupplicant.Ap.Mlme

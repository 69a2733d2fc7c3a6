import WpaSupplicant.Ap.Mlme.Theorems

namespace WpaSupplicant.Ap.Negotiation

open Lib.Octets KeyData Pmksa Mlme

variable {cr : Crypto} {caches : List Cache} {a a' : Auth} {addr : Addr} {wpaIe : Octets} {ans : IeAnswers}
  {conf : WpaAuthConfig} {sm : Sm} {data : WpaIeData}

def commonKeyMgmt (conf : WpaAuthConfig) (data : WpaIeData) : List KeyMgmt :=
  data.keyMgmt.filter (· ∈ conf.wpaKeyMgmt)

-- A request that is refused leaves the state machine of the station as it was.
def Atomic (cr : Crypto) (caches : List Cache) (a : Auth) (addr : Addr) (wpaIe : Octets) (ans : IeAnswers) : Prop :=
  ∀ a' res, wpaValidateWpaIe cr caches a addr wpaIe ans = some (a', res) → res ≠ .ieOk → res ≠ .allocFail →
    a'.sms addr = a.sms addr

-- The suite that is selected for an IE in which the protocol version, the group cipher and the key management suites are
-- right, and the pairwise ciphers or what is asked for management frame protection is not
def refusedLate (conf : WpaAuthConfig) (wpaIe : Octets) : Option KeyMgmt :=
  if wpaIe.length < 1 ∨ ieVersion wpaIe ∉ conf.protos then none
  else
    match parseIe wpaIe with
    | .error _ => none
    | .ok data =>
      let ciphers := commonPairwise conf (ieVersion wpaIe) data
      if data.groupCipher ≠ some conf.wpaGroup ∨ commonKeyMgmt conf data = [] then none
      else if ciphers = [] ∨ (checkMfp conf data ciphers).isSome then some (pickKeyMgmt (commonKeyMgmt conf data))
      else none

theorem checkMfp_ne {ciphers : List Cipher} {res : WpaValidateResult} (h : checkMfp conf data ciphers = some res) :
    res ≠ .ieOk ∧ res ≠ .allocFail := by
  unfold checkMfp at h
  repeat' split at h
  all_goals cases h
  all_goals decide

theorem negotiate_outcome (conf : WpaAuthConfig) (sm : Sm) (wpaIe : Octets) :
    (∃ res, negotiate conf sm wpaIe = ({ sm with wpaKeyMgmt := (refusedLate conf wpaIe).getD sm.wpaKeyMgmt }, .inl res) ∧
        res ≠ .ieOk ∧ res ≠ .allocFail) ∨
      refusedLate conf wpaIe = none ∧ ∃ sm' pmkids, negotiate conf sm wpaIe = (sm', .inr pmkids) := by
  simp only [negotiate, refusedLate]
  by_cases hlen : wpaIe.length < 1
  · rw [if_pos hlen, if_pos (.inl hlen)]
    exact .inl ⟨_, rfl, by decide⟩
  by_cases hproto : ieVersion wpaIe ∉ conf.protos
  · rw [if_neg hlen, if_pos hproto, if_pos (.inr hproto)]
    exact .inl ⟨_, rfl, by decide⟩
  rw [if_neg hlen, if_neg hproto, if_neg (not_or.mpr ⟨hlen, hproto⟩)]
  cases parseIe wpaIe with
  | error e => exact .inl ⟨_, rfl, by decide⟩
  | ok data =>
    dsimp only
    by_cases hgroup : data.groupCipher ≠ some conf.wpaGroup
    · rw [if_pos hgroup, if_pos (.inl hgroup)]
      exact .inl ⟨_, rfl, by decide⟩
    by_cases hakm : commonKeyMgmt conf data = []
    · rw [if_neg hgroup, if_pos (show data.keyMgmt.filter _ = [] from hakm), if_pos (.inr hakm)]
      exact .inl ⟨_, rfl, by decide⟩
    rw [if_neg hgroup, if_neg (show ¬ data.keyMgmt.filter _ = [] from hakm), if_neg (not_or.mpr ⟨hgroup, hakm⟩)]
    by_cases hciphers : commonPairwise conf (ieVersion wpaIe) data = []
    · rw [if_pos hciphers, if_pos (.inl hciphers)]
      exact .inl ⟨_, rfl, by decide⟩
    rw [if_neg hciphers]
    cases hmfp : checkMfp conf data (commonPairwise conf (ieVersion wpaIe) data) with
    | some res =>
      rw [if_pos (show _ ∨ (some res).isSome = true from .inr rfl)]
      exact .inl ⟨res, rfl, checkMfp_ne hmfp⟩
    | none =>
      rw [if_neg (show ¬ (_ ∨ (none : Option WpaValidateResult).isSome = true) by simp [hciphers])]
      exact .inr ⟨rfl, _, _, rfl⟩

theorem copyIe_result (wpaIe : Octets) (ans : IeAnswers) (hsm : a.sms addr = some sm) :
    (copyIe a addr wpaIe ans).2 = .ieOk ∨ (copyIe a addr wpaIe ans).2 = .allocFail := by
  rw [copyIe, hsm]
  dsimp only
  split
  · exact .inr rfl
  · exact .inl rfl

theorem usePmksa_sms_self (a : Auth) (addr : Addr) (sm : Sm) (ans : IeAnswers) (selected : Selected) :
    ∃ sm', (usePmksa a addr sm ans selected).sms addr = some sm' := by
  cases selected <;> exact ⟨_, setSm_sms_self _⟩

-- A request that is refused changes nothing just when it is not refused late, or for the suite that the station has.
theorem refused_request_atomic_iff :
    Atomic cr caches a addr wpaIe ans ↔
      ∀ sm keyMgmt, a.sms addr = some sm → refusedLate a.conf wpaIe = some keyMgmt → keyMgmt = sm.wpaKeyMgmt := by
  constructor
  · intro h sm keyMgmt hsm hlate
    rcases negotiate_outcome a.conf sm wpaIe with ⟨res, heq, hok, halloc⟩ | ⟨hnone, -⟩
    · rw [hlate, Option.getD_some] at heq
      have hval : wpaValidateWpaIe cr caches a addr wpaIe ans =
          some (setSm a addr { sm with wpaKeyMgmt := keyMgmt }, res) := by
        simp only [wpaValidateWpaIe, hsm, heq]
      have hsame := h _ res hval hok halloc
      rw [setSm_sms_self, hsm] at hsame
      exact congrArg Sm.wpaKeyMgmt (Option.some.inj hsame)
    · rw [hlate] at hnone
      cases hnone
  · intro h a' res hval hok halloc
    cases hsm : a.sms addr with
    | none =>
      simp only [wpaValidateWpaIe, hsm] at hval
      cases hval
      exact hsm
    | some sm =>
      rcases negotiate_outcome a.conf sm wpaIe with ⟨res', heq, -, -⟩ | ⟨-, sm', pmkids, heq⟩
      · simp only [wpaValidateWpaIe, hsm, heq] at hval
        cases hval
        have hkey : (refusedLate a.conf wpaIe).getD sm.wpaKeyMgmt = sm.wpaKeyMgmt := by
          cases hlate : refusedLate a.conf wpaIe with
          | none => rfl
          | some keyMgmt => exact h sm keyMgmt hsm hlate
        rw [setSm_sms_self, hkey]
      · -- the only failure behind the negotiation is that of the allocation
        simp only [wpaValidateWpaIe, hsm, heq] at hval
        obtain ⟨selected, -, hcopy⟩ := Option.map_eq_some_iff.mp hval
        obtain ⟨sm'', hsm''⟩ := usePmksa_sms_self a addr sm' ans selected
        obtain rfl := congrArg Prod.snd hcopy
        rcases copyIe_result wpaIe ans hsm'' with hres | hres
        · exact absurd hres hok
        · exact absurd hres halloc

-- A station with a session asks for another suite, with a cipher that is not allowed.
def sampleConf : WpaAuthConfig where
  protos := [.rsn]
  wpaKeyMgmt := [.psk, .ieee8021x]
  wpaPairwise := []
  wpaGroup := .ccmp
  rsnPairwise := [.ccmp]

def sampleAuth (conf : WpaAuthConfig) : Auth where
  addr := 1
  conf := conf
  sms := fun _ => some { wpaKeyMgmt := .psk, pairwise := some .ccmp, wpa := some .rsn }

def sampleIe (pairwise keyMgmt : Octets) : Octets :=
  elem eidRsn ([1, 0] ++ AuthIe.rsnCipherSuiteCcmp ++ [1, 0] ++ pairwise ++ [1, 0] ++ keyMgmt)

theorem refused_request_changes_suite :
    ¬ Atomic .transparent [] (sampleAuth sampleConf) 2
      (sampleIe AuthIe.rsnCipherSuiteTkip AuthIe.rsnAuthKeyMgmtUnspec8021x) {} := by
  intro h
  have hsame := h _ .invalidPairwise rfl (by decide) (by decide)
  revert hsame
  decide

def FoundBy (cr : Crypto) (caches : List Cache) (a : Auth) (addr : Addr) (ans : IeAnswers) (data : WpaIeData)
    (p : Ptr) : Prop :=
  ∃ pmkid ∈ pmkidList data,
    (∃ e, pmksaCacheAuthGet a.cache (some addr) (some pmkid) = some e ∧ e.spa = addr ∧ e.pmkid = pmkid ∧ e.ptr = p) ∨
      ∃ old, okcForEachAuth cr a.addr addr pmkid caches = some (some old) ∧
        cr.rsnPmkid old.pmk a.addr addr old.akmp.sha256 = pmkid ∧ ans.okc = some p

-- What is selected is listed by the station and allowed by the configuration.
structure Sound (cr : Crypto) (caches : List Cache) (a : Auth) (addr : Addr) (wpaIe : Octets) (ans : IeAnswers)
    (data : WpaIeData) (sm : Sm) : Prop where
  pairwise : ∃ cipher, sm.pairwise = some cipher ∧ cipher ∈ commonPairwise a.conf (ieVersion wpaIe) data
  keyMgmt : sm.wpaKeyMgmt ∈ commonKeyMgmt a.conf data
  group : data.groupCipher = some a.conf.wpaGroup
  version : sm.wpa = some (ieVersion wpaIe) ∧ ieVersion wpaIe ∈ a.conf.protos
  mfp : a.conf.ieee80211w = .required → sm.mgmtFrameProt = true
  pmksa : ∀ p, sm.pmksa = some p → FoundBy cr caches a addr ans data p

def Selectable (conf : WpaAuthConfig) (version : Proto) (data : WpaIeData) : Prop :=
  (.ccmp ∈ commonPairwise conf version data ∨ .tkip ∈ commonPairwise conf version data) ∧
    ∃ keyMgmt ∈ [KeyMgmt.ieee8021xSha256, .pskSha256, .ieee8021x, .psk], keyMgmt ∈ commonKeyMgmt conf data

instance (conf : WpaAuthConfig) (version : Proto) (data : WpaIeData) : Decidable (Selectable conf version data) :=
  inferInstanceAs (Decidable (_ ∧ _))

theorem pickKeyMgmt_mem_iff (l : List KeyMgmt) :
    pickKeyMgmt l ∈ l ↔ ∃ keyMgmt ∈ [KeyMgmt.ieee8021xSha256, .pskSha256, .ieee8021x, .psk], keyMgmt ∈ l := by
  unfold pickKeyMgmt
  split
  · simp_all
  split
  · simp_all
  split
  · simp_all
  · simp_all

variable {pmkid : BitVec 128}

theorem selectOkc_found {pmkids : List (BitVec 128)} {old : Entry}
    (h : selectOkc cr caches a.addr addr pmkids = some (.okc old pmkid)) :
    pmkid ∈ pmkids ∧ okcForEachAuth cr a.addr addr pmkid caches = some (some old) := by
  induction pmkids with
  | nil => cases h
  | cons id next ih =>
    rw [selectOkc] at h
    split at h
    · cases h
    · rename_i old' hold
      cases h
      exact ⟨List.mem_cons_self, hold⟩
    · obtain ⟨hmem, hfor⟩ := ih h
      exact ⟨List.mem_cons_of_mem _ hmem, hfor⟩

theorem getOkc_pmkid {aa spa : Addr} {l : List Entry} {old : Entry}
    (h : pmksaCacheGetOkc cr aa spa pmkid l = some (some old)) :
    cr.rsnPmkid old.pmk aa spa old.akmp.sha256 = pmkid := by
  induction l with
  | nil => cases h
  | cons e l ih =>
    rw [pmksaCacheGetOkc] at h
    split at h
    · cases h
    split at h
    · rename_i heq
      cases h
      exact heq
    · exact ih h

theorem okcForEachAuth_pmkid {aa spa : Addr} {l : List Cache} {old : Entry}
    (h : okcForEachAuth cr aa spa pmkid l = some (some old)) :
    cr.rsnPmkid old.pmk aa spa old.akmp.sha256 = pmkid := by
  induction l with
  | nil => cases h
  | cons c l ih =>
    rw [okcForEachAuth] at h
    split at h
    · cases h
    · rename_i e hget
      cases h
      exact getOkc_pmkid hget
    · exact ih h

theorem selectPmksa_found {selected : Selected} (h : selectPmksa cr caches a addr (pmkidList data) = some selected)
    {p : Ptr} (hp : selectedPtr ans selected = some p) : FoundBy cr caches a addr ans data p := by
  rw [selectPmksa] at h
  split at h
  · rename_i e hfind
    cases h
    obtain ⟨pmkid, hmem, hget⟩ := List.exists_of_findSome?_eq_some hfind
    have hfor : Entry.isFor (some addr) (some pmkid) e = true := List.find?_some hget
    obtain ⟨haddr, hid⟩ : addr = e.spa ∧ pmkid = e.pmkid := by simpa [Entry.isFor] using hfor
    exact ⟨pmkid, hmem, .inl ⟨e, hget, haddr.symm, hid.symm, Option.some.inj hp⟩⟩
  · split at h
    · cases selected with
      | nothing => cases hp
      | cached e => exact absurd h (selectOkc_ne_cached caches a.addr addr _ e)
      | okc old pmkid =>
        obtain ⟨hmem, hfor⟩ := selectOkc_found h
        exact ⟨pmkid, hmem, .inr ⟨old, hfor, okcForEachAuth_pmkid hfor, hp⟩⟩
    · cases h
      cases hp

-- Where management frame protection is required, a station that is accepted has it.
theorem mfpCapable_of_required {ciphers : List Cipher} (hrequired : conf.ieee80211w = .required)
    (h : checkMfp conf data ciphers = none) : mfpCapable data = true := by
  by_contra hcap
  rw [checkMfp, if_neg (not_not.mpr hrequired), if_pos (by simpa using hcap)] at h
  cases h

-- For every IE that is accepted the selection is sound just when what both ends have includes a suite that is tested for,
-- or the last one of each kind, which is taken without a test.
theorem accepted_request_sound_iff (hres : wpaValidateWpaIe cr caches a addr wpaIe ans = some (a', .ieOk)) :
    ∃ data sm, parseIe wpaIe = .ok data ∧ a'.sms addr = some sm ∧
      (Sound cr caches a addr wpaIe ans data sm ↔ Selectable a.conf (ieVersion wpaIe) data) := by
  cases hsm : a.sms addr with
  | none =>
    simp only [wpaValidateWpaIe, hsm] at hres
    cases hres
  | some sm =>
    have hrefused : ∀ sm', negotiate a.conf sm wpaIe ≠ (sm', .inl .ieOk) := by
      intro sm' heq
      rcases negotiate_outcome a.conf sm wpaIe with ⟨res, heq', hok, -⟩ | ⟨-, _, _, heq'⟩
      · rw [heq] at heq'
        cases heq'
        exact hok rfl
      · rw [heq] at heq'
        cases heq'
    rcases wpaValidateWpaIe_sms hsm hres with ⟨sm', hneg, -⟩ | ⟨sm', pmkids, selected, ie, hneg, hsel, hsms⟩
    · exact absurd hneg (hrefused sm')
    rcases negotiate_data a.conf sm wpaIe with ⟨_, heq⟩ |
      ⟨data, hversion, hparse, hgroup, hakm, ⟨_, heq⟩ | ⟨hciphers, hmfp, heq⟩⟩
    · rw [hneg] at heq
      cases heq
    · rw [hneg] at heq
      cases heq
    rw [hneg] at heq
    cases heq
    refine ⟨data, _, hparse, by rw [hsms, setSm_sms_self], ?_⟩
    constructor
    · intro h
      refine ⟨?_, (pickKeyMgmt_mem_iff _).mp h.keyMgmt⟩
      obtain ⟨cipher, hcipher, hmem⟩ := h.pairwise
      obtain rfl := Option.some.inj hcipher
      split at hmem
      · exact .inl hmem
      · exact .inr hmem
    · rintro ⟨hcipher, hkey⟩
      refine ⟨⟨_, rfl, ?_⟩, (pickKeyMgmt_mem_iff _).mpr hkey, hgroup, ⟨rfl, hversion⟩, ?_, ?_⟩
      · split
        · assumption
        · rename_i hno
          exact hcipher.resolve_left hno
      · intro hrequired
        show (decide (a.conf.ieee80211w ≠ .noMgmtFrameProtection) && mfpCapable data) = true
        rw [mfpCapable_of_required hrequired hmfp, hrequired]
        rfl
      · exact fun p hp => selectPmksa_found hsel hp

theorem accepted_request_sound_psk :
    ∃ data sm, parseIe (sampleIe AuthIe.rsnCipherSuiteCcmp AuthIe.rsnAuthKeyMgmtPskOver8021x) = .ok data ∧
      Sound .transparent [] (sampleAuth sampleConf) 2
        (sampleIe AuthIe.rsnCipherSuiteCcmp AuthIe.rsnAuthKeyMgmtPskOver8021x) {} data sm := by
  have hres : ∃ a', wpaValidateWpaIe .transparent [] (sampleAuth sampleConf) 2
      (sampleIe AuthIe.rsnCipherSuiteCcmp AuthIe.rsnAuthKeyMgmtPskOver8021x) {} = some (a', .ieOk) := ⟨_, rfl⟩
  obtain ⟨a', hres⟩ := hres
  obtain ⟨data, sm, hparse, -, hiff⟩ := accepted_request_sound_iff hres
  have hdata : parseIe (sampleIe AuthIe.rsnCipherSuiteCcmp AuthIe.rsnAuthKeyMgmtPskOver8021x) =
      .ok { keyMgmt := [.psk] } := by decide
  obtain rfl := Except.ok.inj (hdata.symm.trans hparse)
  exact ⟨_, sm, hdata, hiff.mpr (by decide)⟩

-- An access point that is set up for the group cipher only: the station asks for just that and gets TKIP.
theorem accepted_request_unlisted :
    let conf := { sampleConf with rsnPairwise := [.none] }
    let wpaIe := sampleIe AuthIe.rsnCipherSuiteNone AuthIe.rsnAuthKeyMgmtPskOver8021x
    parseIe wpaIe = .ok { pairwiseCipher := [.none], keyMgmt := [.psk] } ∧
      ∃ a' sm, wpaValidateWpaIe .transparent [] (sampleAuth conf) 2 wpaIe {} = some (a', .ieOk) ∧
        a'.sms 2 = some sm ∧ sm.pairwise = some .tkip ∧
        ¬ Sound .transparent [] (sampleAuth conf) 2 wpaIe {} { pairwiseCipher := [.none], keyMgmt := [.psk] } sm := by
  refine ⟨by decide, _, _, rfl, rfl, rfl, fun h => ?_⟩
  obtain ⟨cipher, hcipher, hmem⟩ := h.pairwise
  obtain rfl : Cipher.tkip = cipher := Option.some.inj hcipher
  revert hmem
  decide

end WpaSupplicant.Ap.Negotiation

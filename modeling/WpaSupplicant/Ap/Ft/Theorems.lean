import WpaSupplicant.Ap.Ft.Run

namespace WpaSupplicant.Ap.Ft

open Lib.Octets Lib.Machine KeyData Mlme

variable {cr : FtCrypto} {wpsValid : Octets → Bool} {start ap : FtAp} {addr : Addr} {sm : FtSm}

-- The events after which the PTK is another one, and the FT requests that did not get that far
def FtEvent.touches : FtEvent → Bool
  | .request _ _ _ => true
  | .assigned => true
  | .assocFt => false
  | .setKey _ _ => false

def FtEvent.derives : FtEvent → Bool
  | .request _ _ derived => derived.isSome
  | _ => false

namespace FtSm

def lastTouch (sm : FtSm) : Option FtEvent := sm.history.find? FtEvent.touches

def sinceDerived (sm : FtSm) : List FtEvent := sm.history.takeWhile fun e => !e.derives

-- `pmk_r1_name_valid` is set, the request that set it got its ANonce and could be answered, and
-- the PTK was neither cleared nor assigned since.
def ready (sm : FtSm) : Bool :=
  sm.pmkR1NameValid &&
    match sm.lastTouch with
    | some (.request ans _ _) => ans.anonce.isSome && ans.respIes
    | _ => false

end FtSm

section Request

variable {conf : FtConfig} {cache : List PmkR1} {ies : Octets} {ans : FtAnswers}

theorem wpaFtInstallPtk_history (sm : FtSm) (setKey : Bool) :
    (wpaFtInstallPtk sm setKey).history = sm.history ∨
      ∃ alg key, (wpaFtInstallPtk sm setKey).history = .setKey alg key :: sm.history := by
  rw [wpaFtInstallPtk]
  split
  · exact .inr ⟨_, _, rfl⟩
  · exact .inr ⟨_, _, rfl⟩
  · exact .inl rfl

theorem wpaFtInstallPtk_frame (sm : FtSm) (setKey : Bool) : ∃ history pairwiseSet,
    wpaFtInstallPtk sm setKey = { sm with history := history, pairwiseSet := pairwiseSet } := by
  rw [wpaFtInstallPtk]
  split
  · exact ⟨_, _, rfl⟩
  · exact ⟨_, _, rfl⟩
  · exact ⟨sm.history, sm.pairwiseSet, rfl⟩

theorem checkAuthIes_checked (conf : FtConfig) (sm : FtSm) (ies : Octets) :
    (checkAuthIes conf sm ies).1.pmkR1NameValid = false ∧
      (checkAuthIes conf sm ies).1.history = sm.history ∧
      (checkAuthIes conf sm ies).2 ≠ .error .success := by
  simp only [checkAuthIes]
  split
  · exact ⟨rfl, rfl, by simp⟩
  split
  · exact ⟨rfl, rfl, by simp⟩
  split
  · exact ⟨rfl, rfl, by simp⟩
  split
  · exact ⟨rfl, rfl, by simp⟩
  split
  · exact ⟨rfl, rfl, by simp⟩
  · exact ⟨rfl, rfl, by simp⟩

theorem wpaFtFetchPmkR1_spec {spa : Addr} {name : Octets} {r1 : PmkR1}
    (h : wpaFtFetchPmkR1 cache spa name = some r1) :
    r1 ∈ cache ∧ r1.spa = spa ∧ r1.pmkR1Name = name := by
  have hfound := List.find?_some h
  exact ⟨List.mem_of_find?_eq_some h, by simpa using hfound⟩

inductive Processed (cr : FtCrypto) (conf : FtConfig) (cache : List PmkR1) (addr : Addr)
    (old : List FtEvent) (ans : FtAnswers) (sm : FtSm) : Prop where
  | refused (status : Status) (hstatus : status ≠ .success) (hvalid : sm.pmkR1NameValid = false)
      (hhistory : sm.history = .request ans status none :: old)
  | noAnonce (hans : ans.anonce = none)
      (hhistory : sm.history = .request ans .unspecifiedFailure none :: old)
  | derived (r1 : PmkR1) (ptk : Octets) (keys : List FtEvent) (hans : ans.anonce.isSome)
      (hcache : r1 ∈ cache) (hspa : r1.spa = addr) (hname : r1.pmkR1Name = sm.pmkR1Name)
      (hvalid : sm.pmkR1NameValid = true) (hptk : sm.ptk = derivePtk cr conf addr { sm with ptk := ptk } r1)
      (hhistory : sm.history = .request ans (if ans.respIes then .success else .unspecifiedFailure)
        (some (r1, sm.ptk)) :: keys)

theorem wpaFtProcessAuthReq_processed (sm : FtSm) :
    Processed cr conf cache addr sm.history ans
      (wpaFtProcessAuthReq cr conf cache addr sm ies ans).1 := by
  obtain ⟨hvalid, hhistory, hstatus⟩ := checkAuthIes_checked conf sm ies
  rw [wpaFtProcessAuthReq]
  split
  · rename_i sm' status hcheck
    rw [hcheck] at hvalid hhistory hstatus
    exact .refused status (fun h => hstatus (by rw [h])) hvalid (congrArg (List.cons _) hhistory)
  rename_i sm' name hcheck
  rw [hcheck] at hvalid hhistory
  split
  · exact .refused .invalidPmkid (by simp) hvalid (congrArg (List.cons _) hhistory)
  rename_i r1 hr1
  obtain ⟨hmem, hspa, -⟩ := wpaFtFetchPmkR1_spec hr1
  rw [deriveKeys]
  dsimp only
  split
  · rename_i hans
    exact .noAnonce hans (congrArg (List.cons _) hhistory)
  rename_i anonce hans
  obtain ⟨keys, set, hframe⟩ := wpaFtInstallPtk_frame
    { sm' with
      pmkR1NameValid := true, pmkR1Name := r1.pmkR1Name, anonce := anonce
      ptk := derivePtk cr conf addr { sm' with
        pmkR1NameValid := true, pmkR1Name := r1.pmkR1Name, anonce := anonce } r1
      terms := { sm'.terms with pairwise := r1.pairwise } } ans.setKey
  rw [hframe]
  exact .derived r1 sm'.ptk keys (by simp [hans]) hmem hspa rfl rfl rfl rfl

end Request

-- What an FT request left behind, as long as nothing else assigned the PTK
structure Derived (cr : FtCrypto) (ap : FtAp) (addr : Addr) (sm : FtSm) (r1 : PmkR1) : Prop where
  cache : r1 ∈ ap.cache
  spa : r1.spa = addr
  name : r1.pmkR1Name = sm.pmkR1Name
  ptk : ∃ ptk, sm.ptk = derivePtk cr ap.conf addr { sm with ptk := ptk } r1

-- Where the last event at the PTK is a request: it was answered with success where the flag is set
-- and the access point had what it needs, and the PTK is the one that it derived.
structure Traced (cr : FtCrypto) (ap : FtAp) (addr : Addr) (sm : FtSm) : Prop where
  request : ∀ ans status derived, sm.lastTouch = some (.request ans status derived) →
    (status = .success ↔ sm.pmkR1NameValid ∧ ans.anonce.isSome ∧ ans.respIes) ∧
      (status = .success → ∃ r1, derived = some (r1, sm.ptk) ∧ Derived cr ap addr sm r1)

-- What the invariant below reads of a state machine is the same.
structure Alike (sm sm' : FtSm) : Prop where
  lastTouch : sm'.lastTouch = sm.lastTouch
  valid : sm'.pmkR1NameValid = sm.pmkR1NameValid
  name : sm'.pmkR1Name = sm.pmkR1Name
  snonce : sm'.snonce = sm.snonce
  anonce : sm'.anonce = sm.anonce
  ptk : sm'.ptk = sm.ptk

variable {sm' : FtSm} {old : List FtEvent} {e : FtEvent}

theorem Derived.alike {r1 : PmkR1} (h : Derived cr ap addr sm r1) (halike : Alike sm sm') :
    Derived cr ap addr sm' r1 := by
  obtain ⟨ptk, hptk⟩ := h.ptk
  refine ⟨h.cache, h.spa, h.name.trans halike.name.symm, ptk, ?_⟩
  rw [halike.ptk, hptk]
  simp only [derivePtk, halike.snonce, halike.anonce]

theorem Traced.alike (h : Traced cr ap addr sm) (halike : Alike sm sm') : Traced cr ap addr sm' := by
  refine ⟨fun ans status derived hlast => ?_⟩
  rw [halike.lastTouch] at hlast
  obtain ⟨hstatus, hderived⟩ := h.request ans status derived hlast
  refine ⟨by rw [halike.valid]; exact hstatus, fun hs => ?_⟩
  obtain ⟨r1, hr1, hd⟩ := hderived hs
  exact ⟨r1, by rw [halike.ptk]; exact hr1, hd.alike halike⟩

theorem Traced.of_assigned (h : sm.history = .assigned :: old) : Traced cr ap addr sm := by
  refine ⟨fun ans status derived hlast => ?_⟩
  rw [FtSm.lastTouch, h] at hlast
  cases hlast

theorem lastTouch_request {ans : FtAnswers} {status : Status} {derived : Option (PmkR1 × Octets)}
    (h : sm.history = .request ans status derived :: old) :
    sm.lastTouch = some (.request ans status derived) := by
  rw [FtSm.lastTouch, h]
  rfl

theorem Traced.of_processed {ans : FtAnswers} (h : Processed cr ap.conf ap.cache addr old ans sm) :
    Traced cr ap addr sm := by
  refine ⟨fun ans' status derived hlast => ?_⟩
  cases h with
  | refused status' hstatus hvalid hhistory =>
    cases (lastTouch_request hhistory).symm.trans hlast
    exact ⟨by simp [hstatus, hvalid], fun h => absurd h hstatus⟩
  | noAnonce hans hhistory =>
    cases (lastTouch_request hhistory).symm.trans hlast
    exact ⟨by simp [hans], fun h => by cases h⟩
  | derived r1 ptk keys hans hcache hspa hname hvalid hptk hhistory =>
    cases (lastTouch_request hhistory).symm.trans hlast
    exact ⟨by simp [hans, hvalid], fun _ => ⟨r1, rfl, hcache, hspa, hname, ptk, hptk⟩⟩

theorem Traced.assocFt (h : Traced cr ap addr sm) (setKey : Bool) :
    Traced cr ap addr (wpaAuthSmEvent sm .assocFt setKey) := by
  refine h.alike ?_
  rw [wpaAuthSmEvent, if_pos rfl, wpaFtInstallPtk]
  split
  · exact ⟨rfl, rfl, rfl, rfl, rfl, rfl⟩
  · exact ⟨rfl, rfl, rfl, rfl, rfl, rfl⟩
  · exact ⟨rfl, rfl, rfl, rfl, rfl, rfl⟩

theorem Traced.step (h : Traced cr ap addr sm) (hstep : SmStep cr ap addr sm sm') :
    Traced cr ap addr sm' := by
  cases hstep with
  | terms t => exact h.alike ⟨rfl, rfl, rfl, rfl, rfl, rfl⟩
  | request ies ans => exact .of_processed (wpaFtProcessAuthReq_processed sm)
  | event event setKey hevent =>
    rw [wpaAuthSmEvent, if_neg hevent]
    dsimp only
    split
    · exact h.alike ⟨rfl, rfl, rfl, rfl, rfl, rfl⟩
    · exact .of_assigned rfl
  | assign u => exact .of_assigned rfl

theorem Traced.grows {ap' : FtAp} (h : Traced cr ap addr sm) (hgrows : Grows ap ap') :
    Traced cr ap' addr sm := by
  refine ⟨fun ans status derived hlast => ?_⟩
  obtain ⟨hstatus, hderived⟩ := h.request ans status derived hlast
  refine ⟨hstatus, fun hs => ?_⟩
  obtain ⟨r1, hr1, hd⟩ := hderived hs
  refine ⟨r1, hr1, hgrows.cache r1 hd.cache, hd.spa, hd.name, ?_⟩
  rw [hgrows.conf]
  exact hd.ptk

theorem Traced.new : Traced cr ap addr {} := ⟨fun ans status derived h => by cases h⟩

theorem Runs.traced {ok : FtAp → FtOp → Prop} (hstart : start.Initial)
    (hrun : Runs (exec cr wpsValid) ok start ap) (hsm : ap.machine addr = some sm) :
    Traced cr ap addr sm :=
  Runs.machines hstart hrun (fun _ _ => .new) (fun _ _ _ _ hgrows h => h.grows hgrows)
    (fun _ _ _ _ h hstep => h.step hstep) (fun _ _ _ _ setKey _ _ _ _ h => h.assocFt setKey) sm hsm

def MicVerified (cr : FtCrypto) (conf : FtConfig) (addr : Addr) (ptk ies : Octets) : Prop :=
  ∃ parse mdie ftie rsn, wpaFtParseIes ies = some parse ∧ parse.mdie = some mdie ∧
    parse.ftie = some ftie ∧ parse.rsn = some rsn ∧
    cr.omac1 (kck ptk) (ftMicData addr conf.addr 5 mdie ftie rsn (parse.ric.getD [])) = Ftie.mic ftie

-- The most recent FT request was answered with success, the PTK was derived there from a PMK-R1 of
-- the station and is still in place, and the MIC of the frame is right under it.
def Authenticated (cr : FtCrypto) (ap : FtAp) (addr : Addr) (sm : FtSm) (ies : Octets) : Prop :=
  (∃ ans r1, sm.lastTouch = some (.request ans .success (some (r1, sm.ptk))) ∧
    Derived cr ap addr sm r1) ∧ MicVerified cr ap.conf addr sm.ptk ies

theorem passed {c : Prop} [Decidable c] {failure status : Status} (hfailure : failure ≠ .success)
    (h : (if c then failure else status) = .success) : ¬ c ∧ status = .success := by
  by_cases hc : c
  · rw [if_pos hc] at h
    exact absurd h hfailure
  · rw [if_neg hc] at h
    exact ⟨hc, h⟩

theorem wpaFtValidateReassoc_mic {conf : FtConfig} {ies : Octets} {alloc : Bool}
    (h : wpaFtValidateReassoc cr conf addr sm ies alloc = .success) :
    MicVerified cr conf addr sm.ptk ies := by
  rw [wpaFtValidateReassoc] at h
  split at h
  · cases h
  rename_i parse hparse
  split at h
  · cases h
  · cases h
  rename_i rsn pmkid hrsn _
  obtain ⟨-, h⟩ := passed (by simp) h
  obtain ⟨-, h⟩ := passed (by simp) h
  split at h
  · cases h
  · cases h
  rename_i mdie ftie hmdie hftie
  -- the other fields of the FTIE, the number of its IEs and the memory
  obtain ⟨-, h⟩ := passed (by simp) h
  obtain ⟨-, h⟩ := passed (by simp) h
  obtain ⟨-, h⟩ := passed (by simp) h
  obtain ⟨-, h⟩ := passed (by simp) h
  obtain ⟨-, h⟩ := passed (by simp) h
  obtain ⟨-, h⟩ := passed (by simp) h
  obtain ⟨hmic, -⟩ := passed (by simp) h
  exact ⟨parse, mdie, ftie, rsn, hparse, hmdie, hftie, hrsn, not_not.mp hmic⟩

-- A Reassociation Request that is accepted is authenticated if and only if the machine is ready for
-- it, in every run. Nothing looks whether it is.
theorem ft_reassoc_authenticated (hstart : start.Initial)
    (hrun : Runs (exec cr wpsValid) (fun _ _ => True) start ap) {sta : FtSta} (smAlloc : Bool)
    (t : Terms) {ies : Octets} {alloc : Bool} (hsta : ap.stas addr = some sta)
    (hinit : wpaAuthStaInit sta smAlloc = some sm)
    (hvalid : wpaFtValidateReassoc cr ap.conf addr { sm with terms := t } ies alloc = .success) :
    Authenticated cr ap addr sm ies ↔ sm.ready = true := by
  have htraced : Traced cr ap addr sm := by
    rcases wpaAuthStaInit_cases hinit with hsm | rfl
    · exact Runs.traced hstart hrun (by rw [FtAp.machine, hsta]; exact hsm)
    · exact .new
  have hmic : MicVerified cr ap.conf addr sm.ptk ies := wpaFtValidateReassoc_mic hvalid
  constructor
  · rintro ⟨⟨ans, r1, hlast, -⟩, -⟩
    obtain ⟨hflag, hanonce, hresp⟩ := (htraced.request ans _ _ hlast).1.mp rfl
    simp [FtSm.ready, hlast, hflag, hanonce, hresp]
  · intro hready
    rw [FtSm.ready, Bool.and_eq_true] at hready
    obtain ⟨hflag, hans⟩ := hready
    split at hans
    · rename_i ans status derived hlast
      rw [Bool.and_eq_true] at hans
      obtain ⟨hstatus, hderived⟩ := htraced.request ans status derived hlast
      obtain rfl := hstatus.mpr ⟨hflag, hans.1, hans.2⟩
      obtain ⟨r1, rfl, hr1⟩ := hderived rfl
      exact ⟨⟨ans, r1, hlast, hr1⟩, hmic⟩
    · cases hans

-- Functions that keep their arguments apart, for runs on fixed inputs: a name is kept, the PTK is
-- made of the PMK-R1 and the nonces, and the MIC is the key.
def FtCrypto.transparent : FtCrypto where
  derivePmkR1Name pmkR0Name _ _ := pmkR0Name
  pmkR1ToPtk pmkR1 snonce anonce _ _ len := (pmkR1 ++ anonce ++ snonce).take len
  omac1 key _ := key

def sampleSta : Addr := 0x020000000005

def sampleAp : FtAp where
  conf :=
    { addr := 0x020000000001
      mlme := { ownAddr := 0x020000000001, ssid := [116, 101, 115, 116] }
      wpa := { protos := [.rsn], wpaKeyMgmt := [], wpaPairwise := [], rsnPairwise := [.ccmp], wpaGroup := .ccmp }
      ftKeyMgmt := [.ftPsk]
      mobilityDomain := [0x12, 0x34]
      r1KeyHolder := [2, 0, 0, 0, 0, 1] }

def sampleRsn (pmkid : Octets) : Octets :=
  elem eidRsn ([1, 0, 0, 15, 172, 4, 1, 0, 0, 15, 172, 4, 1, 0, 0, 15, 172, 4, 0, 0, 1, 0] ++ pmkid)

def sampleMdie : Octets := elem eidMobilityDomain [0x12, 0x34, 0]

def sampleSnonce : Octets := List.replicate 32 7

-- A request names the key holder of the PMK-R0; a Reassociation Request names that of the PMK-R1
-- too, and has the MIC.
def sampleAuth (pmkid : Octets) : FtAuthFrame where
  sa := sampleSta
  authAlg := wlanAuthFt
  transaction := 1
  ies := sampleRsn pmkid ++ sampleMdie ++ elem eidFastBssTransition
    ([0, 0] ++ List.replicate 16 0 ++ List.replicate 32 0 ++ sampleSnonce ++ [3, 1, 7])

def sampleReassoc (pmkid anonce mic : Octets) : AssocFrame where
  sa := sampleSta
  reassoc := true
  ies := [0, 4, 116, 101, 115, 116, 1, 1, 2] ++ sampleRsn pmkid ++ sampleMdie ++
    elem eidFastBssTransition
      ([0, 3] ++ mic ++ anonce ++ sampleSnonce ++ [3, 1, 7, 1, 6, 2, 0, 0, 0, 0, 1])

def samplePmkR1 : PmkR1 where
  spa := sampleSta
  pmkR1 := List.replicate 32 9
  pmkR1Name := List.replicate 16 3
  pairwise := some .ccmp

def sampleAnonce : Octets := List.replicate 32 8

def sampleRequest : FtOp :=
  .auth (sampleAuth samplePmkR1.pmkR1Name) { ft := { anonce := some sampleAnonce } }

def sampleReassocOk : AssocFrame :=
  sampleReassoc samplePmkR1.pmkR1Name sampleAnonce (List.replicate 16 9)

def sampleRun (ops : List FtOp) : FtAp :=
  ops.foldl (exec FtCrypto.transparent fun _ => true) sampleAp

theorem sampleAp_initial : sampleAp.Initial := ⟨fun _ => rfl⟩

set_option maxRecDepth 100000 in
theorem ft_reassoc_authenticated_sample :
    let ap := sampleRun [.storePmkR1 samplePmkR1, sampleRequest]
    ∃ sm, ap.machine sampleSta = some sm ∧ sm.ready = true ∧
      Authenticated FtCrypto.transparent ap sampleSta sm sampleReassocOk.ies := by
  intro ap
  have hrun : Runs (exec FtCrypto.transparent fun _ => true) (fun _ _ => True) sampleAp ap :=
    Runs.of_list [_, _] ⟨trivial, trivial, trivial⟩
  have hready : (ap.machine sampleSta).map FtSm.ready = some true := rfl
  have hvalid : (ap.machine sampleSta).map (fun sm => wpaFtValidateReassoc FtCrypto.transparent ap.conf
      sampleSta sm sampleReassocOk.ies true) = some .success := rfl
  obtain ⟨sm, hmachine, hready⟩ := Option.map_eq_some_iff.mp hready
  rw [hmachine, Option.map_some, Option.some_inj] at hvalid
  obtain ⟨sta, hsta, hsm⟩ := Option.bind_eq_some_iff.mp hmachine
  have hinit : wpaAuthStaInit sta true = some sm := by rw [wpaAuthStaInit, hsm]
  exact ⟨sm, hmachine, hready,
    (ft_reassoc_authenticated sampleAp_initial hrun true sm.terms hsta hinit hvalid).mpr hready⟩

-- An FT request for a PMK-R1 that is not there is refused. The Reassociation Request that follows
-- names the PMK-R1 of zeros, repeats the nonces and has a MIC under the KCK of zeros: it is
-- accepted, the port is authorized, and the key of zeros is given to the driver.
set_option maxRecDepth 100000 in
theorem ft_reassoc_forged :
    let refused := sampleRun [.auth (sampleAuth (List.replicate 16 5)) {}]
    let sm : FtSm :=
      { snonce := sampleSnonce, r0khId := [7], history := [.request {} .invalidPmkid none] }
    let f := sampleReassoc (List.replicate 16 0) (List.replicate 32 0) (List.replicate 16 0)
    let accepted := exec FtCrypto.transparent (fun _ => true) refused (.assoc f {})
    let associated := exec FtCrypto.transparent (fun _ => true) accepted
      (.assocCb sampleSta .success true true)
    Runs (exec FtCrypto.transparent fun _ => true) (fun _ _ => True) sampleAp refused ∧
      refused.machine sampleSta = some sm ∧ sm.ptk = List.replicate 64 0 ∧
      wpaFtValidateReassoc FtCrypto.transparent refused.conf sampleSta sm f.ies true = .success ∧
      ¬ Authenticated FtCrypto.transparent refused sampleSta sm f.ies ∧
      accepted.sent = [.assocResp sampleSta true .success, .auth sampleSta wlanAuthFt 2 .invalidPmkid] ∧
      (associated.stas sampleSta).map (fun sta => sta.info.flags.authorized) = some true ∧
      (associated.machine sampleSta).map FtSm.history =
        some [.assocFt, .setKey .ccmp (List.replicate 16 0), .request {} .invalidPmkid none] := by
  refine ⟨Runs.of_list [_] ⟨trivial, trivial⟩, ?_, rfl, ?_, ?_, ?_, ?_, ?_⟩
  · rfl
  · rfl
  · rintro ⟨⟨ans, r1, h, -⟩, -⟩
    cases h
  · rfl
  · rfl
  · rfl

-- The response to a Reassociation Request of FT is acknowledged at most once for each PTK that is
-- derived.
def AckedOnce (ap : FtAp) : FtOp → Prop
  | .assocCb da status added _ => status = .success → added = true →
      ∀ sta ∈ ap.stas da, sta.info.ext.authAlg = wlanAuthFt →
        ∀ sm ∈ sta.sm, sm.history.any FtEvent.derives = true → .assocFt ∉ sm.sinceDerived
  | _ => True

def FtEvent.installs : FtEvent → Bool
  | .setKey _ _ => true
  | _ => false

def InstalledOnce (sm : FtSm) : Prop :=
  sm.history.any FtEvent.derives = true →
    sm.sinceDerived.countP FtEvent.installs ≤ sm.sinceDerived.count .assocFt ∧
      sm.sinceDerived.count .assocFt ≤ 1

theorem sinceDerived_cons (he : e.derives = false) (h : sm'.history = e :: sm.history) :
    sm'.sinceDerived = e :: sm.sinceDerived := by
  simp [FtSm.sinceDerived, h, he]

theorem any_derives_cons (he : e.derives = false) (h : sm'.history = e :: sm.history) :
    sm'.history.any FtEvent.derives = sm.history.any FtEvent.derives := by
  rw [h, List.any_cons, he, Bool.false_or]

theorem InstalledOnce.cons (h : InstalledOnce sm) (he : e.derives = false) (hinst : e.installs = false)
    (hassoc : e ≠ .assocFt) (hhistory : sm'.history = e :: sm.history) : InstalledOnce sm' := by
  intro hany
  rw [any_derives_cons he hhistory] at hany
  rw [sinceDerived_cons he hhistory, List.countP_cons, List.count_cons]
  simp only [hinst, beq_iff_eq, hassoc]
  exact h hany

theorem InstalledOnce.of_history (h : InstalledOnce sm) (hhistory : sm'.history = sm.history) :
    InstalledOnce sm' := by
  rw [InstalledOnce, FtSm.sinceDerived, hhistory]
  exact h

theorem InstalledOnce.of_derives (he : e.derives = true) (hhistory : sm.history = e :: old) :
    InstalledOnce sm := by
  intro _
  simp [FtSm.sinceDerived, hhistory, he]

theorem InstalledOnce.of_processed {conf : FtConfig} {cache : List PmkR1} {ans : FtAnswers}
    (h : InstalledOnce sm) (hproc : Processed cr conf cache addr sm.history ans sm') : InstalledOnce sm' := by
  cases hproc with
  | refused status _ _ hhistory => exact h.cons rfl rfl (by simp) hhistory
  | noAnonce _ hhistory => exact h.cons rfl rfl (by simp) hhistory
  | derived r1 ptk keys _ _ _ _ _ _ hhistory => exact .of_derives rfl hhistory

theorem InstalledOnce.step (h : InstalledOnce sm) (hstep : SmStep cr ap addr sm sm') : InstalledOnce sm' := by
  cases hstep with
  | terms t => exact h.of_history rfl
  | request ies ans => exact h.of_processed (wpaFtProcessAuthReq_processed sm)
  | event event setKey hevent =>
    rw [wpaAuthSmEvent, if_neg hevent]
    dsimp only
    split
    · exact h.of_history rfl
    · exact h.cons (e := .assigned) rfl rfl (by simp) rfl
  | assign u => exact h.cons (e := .assigned) rfl rfl (by simp) rfl

theorem InstalledOnce.assocFt (h : InstalledOnce sm) (setKey : Bool)
    (hfirst : sm.history.any FtEvent.derives = true → .assocFt ∉ sm.sinceDerived) :
    InstalledOnce (wpaAuthSmEvent sm .assocFt setKey) := by
  have hhistory : (wpaAuthSmEvent sm .assocFt setKey).history =
      .assocFt :: (wpaFtInstallPtk sm setKey).history := by
    rw [wpaAuthSmEvent, if_pos rfl]
    rfl
  intro hany
  rw [any_derives_cons rfl hhistory] at hany
  rw [sinceDerived_cons rfl hhistory, List.countP_cons, List.count_cons]
  rcases wpaFtInstallPtk_history sm setKey with hkey | ⟨alg, key, hkey⟩
  · rw [hkey] at hany
    obtain ⟨hle, -⟩ := h hany
    have hnone : sm.sinceDerived.count .assocFt = 0 := List.count_eq_zero.2 (hfirst hany)
    have hsame : (wpaFtInstallPtk sm setKey).sinceDerived = sm.sinceDerived := by
      rw [FtSm.sinceDerived, hkey, FtSm.sinceDerived]
    simp only [hsame, FtEvent.installs, beq_self_eq_true, Bool.false_eq_true, if_true, if_false]
    omega
  · rw [any_derives_cons rfl hkey] at hany
    obtain ⟨hle, -⟩ := h hany
    have hnone : sm.sinceDerived.count .assocFt = 0 := List.count_eq_zero.2 (hfirst hany)
    rw [sinceDerived_cons rfl hkey, List.countP_cons, List.count_cons]
    simp only [FtEvent.installs, beq_self_eq_true, Bool.false_eq_true, if_true, if_false, beq_iff_eq,
      reduceCtorEq]
    omega

theorem Runs.installedOnce (hstart : start.Initial)
    (hrun : Runs (exec cr wpsValid) AckedOnce start ap) (hsm : ap.machine addr = some sm) :
    InstalledOnce sm := by
  refine Runs.machines hstart hrun (P := fun _ _ sm => InstalledOnce sm) (fun _ _ h => by cases h)
    (fun _ _ _ _ _ h => h) (fun _ _ _ _ h hstep => h.step hstep)
    (fun ap addr sta sm setKey hok hsta hsm hft h => ?_) sm hsm
  exact h.assocFt setKey (hok rfl rfl sta hsta hft sm hsm)

-- In every run that acknowledges the response once for each PTK, a temporal key is given to the
-- driver at most once after the request that derived it.
theorem ft_key_installed_once (hstart : start.Initial)
    (hrun : Runs (exec cr wpsValid) AckedOnce start ap) (hsm : ap.machine addr = some sm)
    {later before : List FtEvent} {ans : FtAnswers} {status : Status} {r1 : PmkR1} {ptk : Octets}
    (hhistory : sm.history = later ++ .request ans status (some (r1, ptk)) :: before)
    (hlater : ∀ e ∈ later, e.derives = false) (alg : WpaAlg) (key : Octets) :
    later.count (.setKey alg key) ≤ 1 := by
  have hsince : sm.sinceDerived = later := by
    rw [FtSm.sinceDerived, hhistory, List.takeWhile_append_of_pos (by simpa using hlater)]
    simp [FtEvent.derives]
  have hany : sm.history.any FtEvent.derives = true := by
    rw [hhistory]
    simp [FtEvent.derives]
  obtain ⟨hcount, hassoc⟩ := Runs.installedOnce hstart hrun hsm hany
  rw [hsince] at hcount hassoc
  have hle : later.count (.setKey alg key) ≤ later.countP FtEvent.installs :=
    List.countP_mono_left fun e _ he => by rw [beq_iff_eq.mp he]; rfl
  omega

def sampleJoin : List FtOp :=
  [.storePmkR1 samplePmkR1, sampleRequest, .assoc sampleReassocOk {},
    .assocCb sampleSta .success true true]

def sampleAgain : List FtOp := [.assoc sampleReassocOk {}, .assocCb sampleSta .success true true]

def sampleDerived : FtEvent :=
  .request { anonce := some sampleAnonce } .success
    (some (samplePmkR1, List.replicate 32 9 ++ List.replicate 16 8 ++ List.replicate 16 0))

def sampleInstalled : FtEvent := .setKey .ccmp (List.replicate 16 8)

set_option maxRecDepth 100000 in
theorem sampleJoin_allowed : Allowed (exec FtCrypto.transparent fun _ => true) AckedOnce sampleAp
    sampleJoin := by
  refine ⟨trivial, trivial, trivial, fun _ _ sta hsta _ sm hsm _ => ?_, trivial⟩
  have hmachine := Option.bind_eq_some_iff.mpr ⟨sta, hsta, hsm⟩
  have hfirst : ((sampleRun [.storePmkR1 samplePmkR1, sampleRequest, .assoc sampleReassocOk {}]).stas
      sampleSta).bind FtSta.sm |>.all fun sm => decide (.assocFt ∉ sm.sinceDerived) := by
    rfl
  simp only [sampleRun, List.foldl_cons, List.foldl_nil, hmachine] at hfirst
  exact of_decide_eq_true hfirst

set_option maxRecDepth 100000 in
theorem ft_key_installed_once_sample :
    ∃ sm, (sampleRun sampleJoin).machine sampleSta = some sm ∧
      sm.history = [.assocFt, sampleInstalled] ++ sampleDerived :: [sampleInstalled] ∧
      [.assocFt, sampleInstalled].count sampleInstalled ≤ 1 := by
  have hrun : Runs (exec FtCrypto.transparent fun _ => true) AckedOnce sampleAp
    (sampleRun sampleJoin) := Runs.of_list sampleJoin sampleJoin_allowed
  have hhistory : ((sampleRun sampleJoin).machine sampleSta).map FtSm.history =
      some ([.assocFt, sampleInstalled] ++ sampleDerived :: [sampleInstalled]) := rfl
  obtain ⟨sm, hsm, hhistory⟩ := Option.map_eq_some_iff.mp hhistory
  exact ⟨sm, hsm, hhistory, ft_key_installed_once sampleAp_initial hrun hsm hhistory (by decide) _ _⟩

-- The key is given to the driver for the association, and once more for the repeated request.
set_option maxRecDepth 100000 in
theorem ft_key_reinstalled :
    let later : List FtEvent := [.assocFt, sampleInstalled, .assocFt, sampleInstalled]
    Runs (exec FtCrypto.transparent fun _ => true) (fun _ _ => True) sampleAp
        (sampleRun (sampleJoin ++ sampleAgain)) ∧
      ((sampleRun sampleJoin).stas sampleSta).map (fun sta => sta.info.flags.assoc) = some true ∧
      ((sampleRun (sampleJoin ++ sampleAgain)).machine sampleSta).map FtSm.history =
        some (later ++ sampleDerived :: [sampleInstalled]) ∧
      (∀ e ∈ later, e.derives = false) ∧ later.count sampleInstalled = 2 := by
  refine ⟨?_, ?_, ?_, ?_, ?_⟩
  · exact Runs.of_list (sampleJoin ++ sampleAgain)
      ⟨trivial, trivial, trivial, trivial, trivial, trivial, trivial⟩
  · rfl
  · rfl
  · decide
  · decide

end WpaSupplicant.Ap.Ft

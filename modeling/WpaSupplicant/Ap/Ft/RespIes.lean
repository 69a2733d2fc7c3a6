import WpaSupplicant.Aes.Wrap
import WpaSupplicant.Ap.Ft
import WpaSupplicant.Ap.Ft.Pointers

namespace WpaSupplicant.Ap.Ft.RespIes

open Lib.Octets Lib.Buffer KeyData KeyData.Pointers Pointers Aes

-- The IEs of a (Re)Association Response, written into a buffer: what is behind `pos` so far, and the
-- end of the highest octet that was written

structure Writer where
  out : Octets := []
  reach : ℕ := 0
  deriving DecidableEq, Repr

namespace Writer

def put (w : Writer) (o : Octets) : Writer := ⟨w.out ++ o, max w.reach (w.out.length + o.length)⟩

def touch (w : Writer) (n : ℕ) : Writer := ⟨w.out, max w.reach (w.out.length + n)⟩

end Writer

structure RespConf where
  wpa : WpaAuthConfig
  ftKeyMgmt : List FtAkm
  mobilityDomain : BitVec 16
  ftOverDs : Bool := false
  r1KeyHolder : BitVec 48
  r0KeyHolder : Octets
  deriving DecidableEq, Repr

-- `struct wpa_group`: the current keys
structure RespGroup where
  gn : ℕ := 1
  gtk : Octets := []
  gnIgtk : ℕ := 4
  igtk : BitVec 128 := 0
  deriving DecidableEq, Repr

-- `struct wpa_state_machine`
structure RespSm where
  addr : Addr
  apAddr : Addr
  wpaKeyMgmt : Option (FtAkm ⊕ KeyMgmt)
  pmkR1Name : BitVec 128 := 0
  r0khId : Octets := []
  anonce : BitVec 256 := 0
  snonce : BitVec 256 := 0
  kck : BitVec 128 := 0
  kek : BitVec 128 := 0
  mgmtFrameProt : Bool := false
  group : RespGroup := {}
  deriving DecidableEq, Repr

-- What the environment answers: whether there is memory, and the sequence counters of the driver
structure RespAnswers where
  gtk : Bool := true
  igtk : Bool := true
  realloc : Bool := true
  ftie : Bool := true
  mic : Bool := true
  gtkSeq : BitVec 64 := 0
  igtkSeq : BitVec 48 := 0
  deriving DecidableEq, Repr

section Rsn

variable (conf : RespConf)

def pairwiseSuites : List Octets :=
  AuthIe.selected conf.wpa.rsnPairwise
    [(.ccmp, AuthIe.rsnCipherSuiteCcmp), (.tkip, AuthIe.rsnCipherSuiteTkip), (.none, AuthIe.rsnCipherSuiteNone)]

def akmSuites : List Octets :=
  AuthIe.selected conf.wpa.wpaKeyMgmt
      [(.ieee8021x, AuthIe.rsnAuthKeyMgmtUnspec8021x), (.psk, AuthIe.rsnAuthKeyMgmtPskOver8021x)] ++
    AuthIe.selected conf.ftKeyMgmt
      [(.ftIeee8021x, rsnSelector 0x00 0x0f 0xac 3), (.ftPsk, rsnSelector 0x00 0x0f 0xac 4)] ++
    AuthIe.selected conf.wpa.wpaKeyMgmt
      [(.ieee8021xSha256, AuthIe.rsnAuthKeyMgmt8021xSha256), (.pskSha256, AuthIe.rsnAuthKeyMgmtPskSha256)]

-- The part of the RSN IE that is written before there is a look at `len`
def rsnStart (group : Octets) : Octets :=
  toLE 2 1 ++ group ++ toLE 2 (pairwiseSuites conf).length ++ (pairwiseSuites conf).flatten ++
    toLE 2 (akmSuites conf).length ++ (akmSuites conf).flatten ++ toLE 2 (AuthIe.rsnCapab conf.wpa)

-- `wpa_write_rsn_ie` with a PMKID: the end of what was written, and the IE
def wpaWriteRsnIe (len : ℕ) (pmkid : BitVec 128) : ℕ × Option Octets :=
  match AuthIe.rsnGroupSuite conf.wpa.wpaGroup with
  | none => (4, none)
  | some group =>
    if pairwiseSuites conf = [] then (8, none)
    else if akmSuites conf = [] then (10 + 4 * (pairwiseSuites conf).length, none)
    else
      let body := rsnStart conf group
      if len < 2 + body.length + 2 + 16 then (2 + body.length, none)
      else
        let body := body ++ toLE 2 1 ++ putBE 16 pmkid
        if conf.wpa.ieee80211w = .noMgmtFrameProtection then (2 + body.length, some (elem eidRsn body))
        else if len < 2 + body.length + 2 + 4 then (2 + body.length, none)
        else
          let body := body ++ AuthIe.rsnCipherSuiteAes128Cmac
          (2 + body.length, some (elem eidRsn body))

end Rsn

section Elements

variable (conf : RespConf)

def wpaWriteMdie (len : ℕ) : Option Octets :=
  if len < 2 + 3 then none
  else some ([eidMobilityDomain, 3] ++ putBE 2 conf.mobilityDomain ++ [if conf.ftOverDs then 1 else 0])

def wpaWriteFtie (r0khId : Octets) (anonce snonce : BitVec 256) (len : ℕ) (subelem : Octets) : Option Octets :=
  if len < 2 + Ftie.len + 2 + 6 + 2 + r0khId.length + subelem.length then none
  else
    some
      ([eidFastBssTransition, UInt8.ofNat (Ftie.len + 2 + 6 + 2 + r0khId.length + subelem.length)] ++
        List.replicate 18 0 ++ putBE 32 anonce ++ putBE 32 snonce ++ [1, 6] ++ putBE 6 conf.r1KeyHolder ++
        [3, UInt8.ofNat r0khId.length] ++ r0khId ++ subelem)

variable (c : BlockCipher)

-- The key of `wpa_ft_gtk_subelem` with its padding
def paddedGtk (gtk : Octets) : Octets :=
  let padLen := if gtk.length % 8 = 0 then 0 else 8 - gtk.length % 8
  let padLen := if gtk.length + padLen < 16 then padLen + 8 else padLen
  if padLen = 0 then gtk else gtk ++ 0xdd :: List.replicate (padLen - 1) 0

def wpaFtGtkSubelem (sm : RespSm) (ans : RespAnswers) : Option Octets :=
  if 32 < sm.group.gtk.length then none
  else if !ans.gtk then none
  else
    let key := paddedGtk sm.group.gtk
    some
      ([2, UInt8.ofNat (11 + key.length + 8)] ++ toLE 2 (sm.group.gn % 4) ++ [UInt8.ofNat sm.group.gtk.length] ++
        putBE 8 ans.gtkSeq ++ aesWrap c sm.kek (key.length / 8) key)

def wpaFtIgtkSubelem (sm : RespSm) (ans : RespAnswers) : Option Octets :=
  if !ans.igtk then none
  else
    some
      ([4, 2 + 6 + 1 + 16 + 8] ++ toLE 2 sm.group.gnIgtk ++ putBE 6 ans.igtkSeq ++ [16] ++
        aesWrap c sm.kek 2 (putBE 16 sm.group.igtk))

-- The subelements with the keys; `none` where the function returns
def keySubelems (sm : RespSm) (ans : RespAnswers) : Option Octets :=
  let gtk := (wpaFtGtkSubelem c sm ans).getD []
  if sm.mgmtFrameProt then
    (wpaFtIgtkSubelem c sm ans).bind fun igtk => if ans.realloc then some (gtk ++ igtk) else none
  else some gtk

end Elements

-- `WMM_ADDTS_STATUS_*`
inductive Addts where
  | admissionAccepted | invalidParameters | refused
  deriving DecidableEq, Repr

-- `sizeof(struct wmm_tspec_element)`
def tspecLen : ℕ := 63

def le16 (o : Octets) (i : ℕ) : ℕ := (octet o i).toNat + 256 * (octet o (i + 1)).toNat

def le32 (o : Octets) (i : ℕ) : ℕ := le16 o i + 65536 * le16 o (i + 2)

-- A product of `int`
def intMul (a b : ℤ) : ℤ := Int.bmod (a * b) (2 ^ 32)

def wmmProcessTspec (tspec : Octets) : Addts × Octets :=
  let nominalMsduSize := le16 tspec 11
  let minimumPhyRate := le32 tspec 55
  let surplus := le16 tspec 59
  if nominalMsduSize = 0 then (.invalidParameters, tspec)
  else
    let pps := (le32 tspec 39 / 8 + nominalMsduSize - 1) / nominalMsduSize
    if minimumPhyRate < 1000000 then (.invalidParameters, tspec)
    else
      let duration := nominalMsduSize % 32768 * 8 / (minimumPhyRate / 1000000) + 50
      if surplus ≤ 0x2000 then (.invalidParameters, tspec)
      else
        let mediumTime := (intMul (intMul surplus pps) duration).tdiv 0x2000
        if 750000 < mediumTime then (.refused, tspec)
        else (.admissionAccepted, patch tspec 61 (toLE 2 ((mediumTime.tdiv 32) % 65536).toNat))

-- What a response RDIE says: the status code, and the TSPEC that is written behind it, counted where it
-- is accepted
structure RdieAnswer where
  status : ℕ
  tspec : Option Octets := none
  accepted : Bool := false
  deriving DecidableEq, Repr

def rdieAnswer (room : ℕ) (ies : Octets) : RdieAnswer :=
  match (ieee80211ParseElems ies).bind Elems.wmmTspec with
  | none => { status := 1 }
  | some s =>
    if s.len + 2 < tspecLen then { status := 1 }
    else if room < tspecLen then { status := 1 }
    else
      let r := wmmProcessTspec (field ies (s.off - 2) tspecLen)
      match r.1 with
      | .invalidParameters => { status := 38, tspec := some r.2 }
      | .refused => { status := 37, tspec := some r.2 }
      | .admissionAccepted => { status := 0, tspec := some r.2, accepted := true }

-- `wpa_ft_process_rdie`; its first test leaves the header out of the size.
def wpaFtProcessRdie (maxLen : ℕ) (w : Writer) (id : UInt8) (ies : Octets) : Writer :=
  if maxLen - w.out.length < 4 then w
  else
    let answer := rdieAnswer (maxLen - (w.out.length + 6)) ies
    let w := w.put ([eidRicData, 4, id, if answer.accepted then 1 else 0] ++ toLE 2 answer.status)
    match answer.tspec with
    | none => w
    | some tspec => if answer.accepted then w.put tspec else w.touch tspec.length

def descrEnd (buf : Octets) (pos fin : ℕ) : ℕ :=
  if pos + 2 ≤ fin ∧ pos + 2 + lengthAt buf pos ≤ fin then
    if octet buf pos = eidRicData then pos else descrEnd buf (pos + 2 + lengthAt buf pos) fin
  else pos
termination_by fin - pos

theorem le_descrEnd (buf : Octets) (pos fin : ℕ) : pos ≤ descrEnd buf pos fin := by
  fun_induction descrEnd buf pos fin with
  | case1 pos hpos hid => exact Nat.le_refl _
  | case2 pos hpos hid ih => omega
  | case3 pos hpos => exact Nat.le_refl _

-- The requests of `wpa_ft_process_ric`, each with the identifier and the descriptors
def ricRequests (buf : Octets) (pos fin : ℕ) : List (UInt8 × Octets) :=
  if pos + 4 < fin then
    if octet buf pos ≠ eidRicData ∨ lengthAt buf pos < 4 ∨ fin < pos + 2 + lengthAt buf pos then []
    else
      let start := pos + 2 + lengthAt buf pos
      (octet buf (pos + 2), field buf start (descrEnd buf start fin - start)) ::
        ricRequests buf (descrEnd buf start fin) fin
  else []
termination_by fin - pos
decreasing_by
  have hle := le_descrEnd buf (pos + 2 + lengthAt buf pos) fin
  omega

def wpaFtProcessRic (maxLen : ℕ) (w : Writer) (requests : List (UInt8 × Octets)) : Writer :=
  requests.foldl (fun w r => wpaFtProcessRdie maxLen w r.1 r.2) w

-- The requests that `wpa_ft_parse_ies` finds
def requestsOf (reqIes : Octets) : List (UInt8 × Octets) :=
  match Pointers.wpaFtParseIes reqIes with
  | none => []
  | some parse =>
    match parse.ric with
    | none => []
    | some ric => ricRequests reqIes ric (ric + parse.ricLen)

section Response

variable (c : BlockCipher) (omac1 : BitVec 128 → Octets → BitVec 128) (conf : RespConf)

-- What the MIC of the response covers, in `wpa_ft_mic`
def respMicData (sm : RespSm) (mdie ftie rsnie ric : Octets) : Octets :=
  putBE 6 sm.addr ++ putBE 6 sm.apAddr ++ [6] ++ rsnie ++ mdie ++ patch ftie 4 (List.replicate 16 0) ++ ric

def finishFtie (sm : RespSm) (mdie ftie rsnie ric : Octets) (mic : Bool) : Octets :=
  let ftie := patch ftie 3 [UInt8.ofNat (3 + ieee80211IeCount ric.length ric)]
  if mic then patch ftie 4 (putBE 16 (omac1 sm.kck (respMicData sm mdie ftie rsnie ric))) else ftie

-- The result of `wpa_sm_write_assoc_resp_ies`, with the FTIE that the state machine keeps
structure Response extends Writer where
  assocRespFtie : Option Octets := none
  deriving DecidableEq, Repr

-- The RSN IE where the authentication is FT; `none` where the function returns
def writeRsnie (sm : RespSm) (maxLen : ℕ) (authFt : Bool) : Writer × Option Octets :=
  if authFt then
    match wpaWriteRsnIe conf maxLen sm.pmkR1Name with
    | (reach, none) => (⟨[], reach⟩, none)
    | (reach, some ie) => (⟨ie, reach⟩, some ie)
  else ({}, some [])

def ftieParams (sm : RespSm) (authFt : Bool) (ans : RespAnswers) :
    Option (Octets × BitVec 256 × BitVec 256 × Octets) :=
  if authFt then (keySubelems c sm ans).map fun subelem => (sm.r0khId, sm.anonce, sm.snonce, subelem)
  else some (conf.r0KeyHolder, 0, 0, [])

def writeBehindRsn (sm : RespSm) (maxLen : ℕ) (authFt : Bool) (reqIes : Octets) (ans : RespAnswers) (w : Writer)
    (rsnie : Octets) : Response :=
  match wpaWriteMdie conf (maxLen - w.out.length) with
  | none => { toWriter := w }
  | some mdie =>
    let w := w.put mdie
    match ftieParams c conf sm authFt ans with
    | none => { toWriter := w }
    | some (r0khId, anonce, snonce, subelem) =>
      match wpaWriteFtie conf r0khId anonce snonce (maxLen - w.out.length) subelem with
      | none => { toWriter := w }
      | some ftie =>
        let head := w.put ftie
        let w' := wpaFtProcessRic maxLen head (requestsOf reqIes)
        let ric := w'.out.drop head.out.length
        let ftie' := if authFt then finishFtie omac1 sm mdie ftie rsnie ric ans.mic else ftie
        { out := patch w'.out w.out.length ftie'
          reach := w'.reach
          assocRespFtie := if ans.ftie then some ftie else none }

-- What `wpa_sm_write_assoc_resp_ies` writes for a state machine with FT
def writeFtIes (sm : RespSm) (maxLen : ℕ) (authFt : Bool) (reqIes : Octets) (ans : RespAnswers) : Response :=
  match writeRsnie conf sm maxLen authFt with
  | (w, none) => { toWriter := w }
  | (w, some rsnie) => writeBehindRsn c omac1 conf sm maxLen authFt reqIes ans w rsnie

def wpaSmWriteAssocRespIes (sm : Option RespSm) (maxLen : ℕ) (authFt : Bool) (reqIes : Octets)
    (ans : RespAnswers) : Response :=
  match sm with
  | none => {}
  | some sm =>
    match sm.wpaKeyMgmt with
    | some (.inl _) => writeFtIes c omac1 conf sm maxLen authFt reqIes ans
    | _ => {}

end Response

section Statement

variable (c : BlockCipher) (conf : RespConf)

-- Nothing is written behind the buffer, and the position that is returned is in it.
def Fits (maxLen : ℕ) (r : Response) : Prop := r.reach ≤ maxLen ∧ r.out.length ≤ maxLen

-- The octets of an RSN IE that are written without a look at the room
def uncheckedLen : ℕ :=
  if AuthIe.rsnGroupSuite conf.wpa.wpaGroup = none then 4
  else if pairwiseSuites conf = [] then 8
  else if akmSuites conf = [] then 10 + 4 * (pairwiseSuites conf).length
  else 14 + 4 * (pairwiseSuites conf).length + 4 * (akmSuites conf).length

def rsnIeLen : ℕ :=
  14 + 4 * (pairwiseSuites conf).length + 4 * (akmSuites conf).length + (2 + 16) +
    if conf.wpa.ieee80211w = .noMgmtFrameProtection then 0 else 4

def RsnComplete : Prop :=
  AuthIe.rsnGroupSuite conf.wpa.wpaGroup ≠ none ∧ pairwiseSuites conf ≠ [] ∧ akmSuites conf ≠ []

def headLen (authFt : Bool) (r0khId subelem : Octets) : ℕ :=
  (if authFt then rsnIeLen conf else 0) + 5 + (2 + Ftie.len + 2 + 6 + 2 + r0khId.length + subelem.length)

def answerLen (room : ℕ) (ies : Octets) : ℕ :=
  if room < 4 then 0 else if (rdieAnswer (room - 6) ies).accepted then 6 + tspecLen else 6

def NoTightRdie : ℕ → List (UInt8 × Octets) → Prop
  | _, [] => True
  | room, r :: rs => room ≠ 4 ∧ room ≠ 5 ∧ NoTightRdie (room - answerLen room r.2) rs

-- The room that the response needs: for the part of the RSN IE that is not checked, and behind the head for
-- each RDIE
structure Roomy (sm : RespSm) (maxLen : ℕ) (authFt : Bool) (reqIes : Octets) (ans : RespAnswers) : Prop where
  rsn : authFt = true → uncheckedLen conf ≤ maxLen
  rdie : (authFt = true → RsnComplete conf) → ∀ r0khId anonce snonce subelem,
    ftieParams c conf sm authFt ans = some (r0khId, anonce, snonce, subelem) →
    headLen conf authFt r0khId subelem ≤ maxLen →
    NoTightRdie (maxLen - headLen conf authFt r0khId subelem) (requestsOf reqIes)

end Statement

section Sizes

variable {conf : RespConf}

-- What is written so far ends at its highest octet or before.
def Writer.Tight (w : Writer) : Prop := w.out.length ≤ w.reach

@[simp] theorem Writer.length_put (w : Writer) (o : Octets) : (w.put o).out.length = w.out.length + o.length :=
  List.length_append

@[simp] theorem Writer.reach_put (w : Writer) (o : Octets) :
    (w.put o).reach = max w.reach (w.out.length + o.length) := rfl

@[simp] theorem Writer.out_touch (w : Writer) (n : ℕ) : (w.touch n).out = w.out := rfl

@[simp] theorem Writer.reach_touch (w : Writer) (n : ℕ) : (w.touch n).reach = max w.reach (w.out.length + n) := rfl

theorem length_patch {l x : Octets} {i : ℕ} (h : i + x.length ≤ l.length) : (patch l i x).length = l.length := by
  simp only [patch, List.length_append, List.length_take, List.length_drop]
  omega

theorem length_wmmProcessTspec {tspec : Octets} (h : tspec.length = tspecLen) :
    (wmmProcessTspec tspec).2.length = tspecLen := by
  have hpatch : ∀ n, (patch tspec 61 (toLE 2 n)).length = tspecLen := fun n => by
    rw [length_patch (by rw [length_toLE, h]; decide), h]
  simp only [wmmProcessTspec]
  split_ifs
  · exact h
  · exact h
  · exact h
  · exact h
  · exact hpatch _

theorem rdieAnswer_tspec {room : ℕ} {ies t : Octets} (h : (rdieAnswer room ies).tspec = some t) :
    tspecLen ≤ room ∧ t.length = tspecLen := by
  rw [rdieAnswer] at h
  cases helems : (ieee80211ParseElems ies).bind Elems.wmmTspec with
  | none =>
    rw [helems] at h
    cases h
  | some s =>
    obtain ⟨elems, hparse, htspec⟩ := Option.bind_eq_some_iff.1 helems
    obtain ⟨hoff, hfin⟩ := wmmTspec_inside hparse htspec
    simp only [helems] at h
    by_cases hshort : s.len + 2 < tspecLen
    · rw [if_pos hshort] at h
      cases h
    by_cases hroom : room < tspecLen
    · rw [if_neg hshort, if_pos hroom] at h
      cases h
    have hfield : (field ies (s.off - 2) tspecLen).length = tspecLen := by
      rw [field, List.length_take, List.length_drop]
      omega
    have hlen := length_wmmProcessTspec hfield
    rw [if_neg hshort, if_neg hroom] at h
    refine ⟨Nat.le_of_not_lt hroom, ?_⟩
    cases hres : (wmmProcessTspec (field ies (s.off - 2) tspecLen)).1 <;> simp only [hres] at h <;>
      obtain rfl := Option.some.inj h <;> exact hlen

theorem rdieAnswer_accepted {room : ℕ} {ies : Octets} (h : (rdieAnswer room ies).accepted = true) :
    ∃ t, (rdieAnswer room ies).tspec = some t := by
  rw [rdieAnswer] at h ⊢
  cases helems : (ieee80211ParseElems ies).bind Elems.wmmTspec with
  | none =>
    rw [helems] at h
    cases h
  | some s =>
    simp only [helems] at h ⊢
    by_cases hshort : s.len + 2 < tspecLen
    · rw [if_pos hshort] at h
      cases h
    by_cases hroom : room < tspecLen
    · rw [if_neg hshort, if_pos hroom] at h
      cases h
    rw [if_neg hshort, if_neg hroom] at h ⊢
    cases hres : (wmmProcessTspec (field ies (s.off - 2) tspecLen)).1 <;> simp only [hres] at h ⊢ <;>
      exact ⟨_, rfl⟩

structure AnswerStep (maxLen : ℕ) (w w' : Writer) (ies : Octets) : Prop where
  tight : w'.Tight
  out_le : w.out.length ≤ w'.out.length
  reach_le : w.reach ≤ w'.reach
  over_end : maxLen - w.out.length = 4 ∨ maxLen - w.out.length = 5 → maxLen < w'.reach
  fits : maxLen - w.out.length ≠ 4 → maxLen - w.out.length ≠ 5 → w.reach ≤ maxLen → w'.reach ≤ maxLen
  room : maxLen - w.out.length ≠ 4 → maxLen - w.out.length ≠ 5 → w.reach ≤ maxLen →
    maxLen - w'.out.length = maxLen - w.out.length - answerLen (maxLen - w.out.length) ies

-- An answer of `m` octets, `k` of which count
theorem answerStep_of {maxLen k m : ℕ} {w w' : Writer} {ies : Octets} (htight : w.Tight)
    (hout : w'.out.length = w.out.length + k) (hreach : w'.reach = max w.reach (w.out.length + m)) (hk : k ≤ m)
    (hm : 6 ≤ m) (hroom : 4 ≤ maxLen - w.out.length)
    (hfit : 6 ≤ maxLen - w.out.length → m ≤ maxLen - w.out.length)
    (hanswer : answerLen (maxLen - w.out.length) ies = k) : AnswerStep maxLen w w' ies := by
  unfold Writer.Tight at htight
  constructor
  · unfold Writer.Tight
    omega
  · omega
  · omega
  · omega
  · intro h4 h5 hfits
    have hle := hfit (by omega)
    omega
  · intro h4 h5 hfits
    rw [hanswer]
    omega

theorem rdie_step {w : Writer} (htight : w.Tight) (maxLen : ℕ) (id : UInt8) (ies : Octets) :
    AnswerStep maxLen w (wpaFtProcessRdie maxLen w id ies) ies := by
  by_cases hroom : maxLen - w.out.length < 4
  · have hsame : wpaFtProcessRdie maxLen w id ies = w := by rw [wpaFtProcessRdie, if_pos hroom]
    rw [hsame]
    refine ⟨htight, Nat.le_refl _, Nat.le_refl _, by omega, fun _ _ h => h, fun _ _ _ => ?_⟩
    rw [answerLen, if_pos hroom]
    rfl
  · have hsub : maxLen - (w.out.length + 6) = maxLen - w.out.length - 6 := by omega
    have hlen : answerLen (maxLen - w.out.length) ies =
        if (rdieAnswer (maxLen - w.out.length - 6) ies).accepted then 6 + tspecLen else 6 := by
      rw [answerLen, if_neg hroom]
    rw [wpaFtProcessRdie, if_neg hroom, hsub]
    dsimp only
    have hhead : ∀ a b : UInt8, ∀ n, ([eidRicData, 4, a, b] ++ toLE 2 n).length = 6 := fun a b n => by
      rw [List.length_append, length_toLE]
      rfl
    cases htspec : (rdieAnswer (maxLen - w.out.length - 6) ies).tspec with
    | none =>
      have hnot : (rdieAnswer (maxLen - w.out.length - 6) ies).accepted ≠ true := fun hacc => by
        obtain ⟨t, ht⟩ := rdieAnswer_accepted hacc
        rw [htspec] at ht
        cases ht
      refine answerStep_of (k := 6) (m := 6) htight ?_ ?_ (Nat.le_refl _) (Nat.le_refl _) (by omega) (fun h => h) ?_
      · rw [Writer.length_put, hhead]
      · rw [Writer.reach_put, hhead]
      · rw [hlen, if_neg hnot]
    | some t =>
      obtain ⟨hbig, ht⟩ := rdieAnswer_tspec htspec
      dsimp only
      by_cases hacc : (rdieAnswer (maxLen - w.out.length - 6) ies).accepted = true
      · rw [if_pos hacc] at hlen
        rw [if_pos hacc]
        refine answerStep_of (k := 6 + tspecLen) (m := 6 + tspecLen) htight ?_ ?_ (Nat.le_refl _) (by omega)
          (by omega) (by omega) hlen
        · rw [Writer.length_put, Writer.length_put, hhead, ht]
          omega
        · rw [Writer.reach_put, Writer.reach_put, Writer.length_put, hhead, ht]
          omega
      · rw [if_neg hacc] at hlen
        rw [if_neg hacc]
        refine answerStep_of (k := 6) (m := 6 + tspecLen) htight ?_ ?_ (by omega) (by omega) (by omega) (by omega)
          hlen
        · rw [Writer.out_touch, Writer.length_put, hhead]
        · rw [Writer.reach_touch, Writer.reach_put, Writer.length_put, hhead, ht]
          omega

structure AnswersRun (maxLen : ℕ) (w w' : Writer) (requests : List (UInt8 × Octets)) : Prop where
  tight : w'.Tight
  out_le : w.out.length ≤ w'.out.length
  reach_le : w.reach ≤ w'.reach
  fits : w.reach ≤ maxLen → (w'.reach ≤ maxLen ↔ NoTightRdie (maxLen - w.out.length) requests)

theorem ric_run {w : Writer} (htight : w.Tight) (maxLen : ℕ) (requests : List (UInt8 × Octets)) :
    AnswersRun maxLen w (wpaFtProcessRic maxLen w requests) requests := by
  induction requests generalizing w with
  | nil => exact ⟨htight, Nat.le_refl _, Nat.le_refl _, fun h => ⟨fun _ => trivial, fun _ => h⟩⟩
  | cons r requests ih =>
    have hstep := rdie_step htight maxLen r.1 r.2
    have hrun := ih hstep.tight
    refine ⟨hrun.tight, hstep.out_le.trans hrun.out_le, hstep.reach_le.trans hrun.reach_le, fun hfits => ?_⟩
    constructor
    · intro hend
      have h4 : maxLen - w.out.length ≠ 4 := fun h4 =>
        absurd (hstep.over_end (.inl h4)) (by have := hrun.reach_le.trans hend; omega)
      have h5 : maxLen - w.out.length ≠ 5 := fun h5 =>
        absurd (hstep.over_end (.inr h5)) (by have := hrun.reach_le.trans hend; omega)
      refine ⟨h4, h5, ?_⟩
      rw [← hstep.room h4 h5 hfits]
      exact (hrun.fits (hstep.fits h4 h5 hfits)).1 hend
    · rintro ⟨h4, h5, hrest⟩
      rw [← hstep.room h4 h5 hfits] at hrest
      exact (hrun.fits (hstep.fits h4 h5 hfits)).2 hrest

theorem length_flatten_four {l : List Octets} (h : ∀ s ∈ l, s.length = 4) : l.flatten.length = 4 * l.length := by
  induction l with
  | nil => rfl
  | cons s l ih =>
    rw [List.flatten_cons, List.length_append, h s List.mem_cons_self,
      ih fun t ht => h t (List.mem_cons_of_mem _ ht), List.length_cons]
    omega

theorem length_selected {α : Type} [DecidableEq α] {have_ : List α} {table : List (α × Octets)}
    (h : ∀ p ∈ table, p.2.length = 4) : ∀ s ∈ AuthIe.selected have_ table, s.length = 4 := by
  intro s hs
  obtain ⟨p, hp, rfl⟩ := List.mem_map.1 hs
  exact h p (List.mem_filter.1 hp).1

theorem length_pairwiseSuites : ∀ s ∈ pairwiseSuites conf, s.length = 4 := length_selected (by decide)

theorem length_akmSuites : ∀ s ∈ akmSuites conf, s.length = 4 := by
  intro s hs
  simp only [akmSuites, List.mem_append] at hs
  rcases hs with (hs | hs) | hs
  · exact length_selected (by decide) s hs
  · exact length_selected (by decide) s hs
  · exact length_selected (by decide) s hs

theorem length_rsnGroupSuite {cipher : Cipher} {group : Octets} (h : AuthIe.rsnGroupSuite cipher = some group) :
    group.length = 4 := by
  cases cipher <;> cases h <;> rfl

theorem length_rsnStart (conf : RespConf) {group : Octets} (h : group.length = 4) :
    (rsnStart conf group).length = 12 + 4 * (pairwiseSuites conf).length + 4 * (akmSuites conf).length := by
  simp only [rsnStart, List.length_append, length_toLE, h, length_flatten_four length_pairwiseSuites,
    length_flatten_four length_akmSuites]
  omega

structure RsnStep (conf : RespConf) (len : ℕ) (r : ℕ × Option Octets) : Prop where
  unchecked : uncheckedLen conf ≤ r.1
  fits : uncheckedLen conf ≤ len → r.1 ≤ len
  length : ∀ ie, r.2 = some ie →
    ie.length = rsnIeLen conf ∧ r.1 = rsnIeLen conf ∧ rsnIeLen conf ≤ len ∧ RsnComplete conf
  isSome : RsnComplete conf → rsnIeLen conf + 2 ≤ len → r.2.isSome

theorem wpaWriteRsnIe_step (conf : RespConf) (len : ℕ) (pmkid : BitVec 128) : RsnStep conf len (wpaWriteRsnIe conf len pmkid) := by
  cases hgroup : AuthIe.rsnGroupSuite conf.wpa.wpaGroup with
  | none =>
    have hun : uncheckedLen conf = 4 := if_pos hgroup
    have hres : wpaWriteRsnIe conf len pmkid = (4, none) := by rw [wpaWriteRsnIe, hgroup]
    rw [hres]
    exact ⟨by rw [hun], by rw [hun]; exact fun h => h, fun _ h => (by cases h), fun h => absurd hgroup h.1⟩
  | some group =>
    have hsome : ¬AuthIe.rsnGroupSuite conf.wpa.wpaGroup = none := by rw [hgroup]; exact Option.some_ne_none _
    by_cases hpairwise : pairwiseSuites conf = []
    · have hun : uncheckedLen conf = 8 := by rw [uncheckedLen, if_neg hsome, if_pos hpairwise]
      have hres : wpaWriteRsnIe conf len pmkid = (8, none) := by
        rw [wpaWriteRsnIe, hgroup]
        exact if_pos hpairwise
      rw [hres]
      exact ⟨by rw [hun], by rw [hun]; exact fun h => h, fun _ h => (by cases h), fun h => absurd hpairwise h.2.1⟩
    by_cases hakm : akmSuites conf = []
    · have hun : uncheckedLen conf = 10 + 4 * (pairwiseSuites conf).length := by
        rw [uncheckedLen, if_neg hsome, if_neg hpairwise, if_pos hakm]
      have hres : wpaWriteRsnIe conf len pmkid = (10 + 4 * (pairwiseSuites conf).length, none) := by
        rw [wpaWriteRsnIe, hgroup]
        exact (if_neg hpairwise).trans (if_pos hakm)
      rw [hres]
      exact ⟨by rw [hun], by rw [hun]; exact fun h => h, fun _ h => (by cases h), fun h => absurd hakm h.2.2⟩
    have hun : uncheckedLen conf = 14 + 4 * (pairwiseSuites conf).length + 4 * (akmSuites conf).length := by
      rw [uncheckedLen, if_neg hsome, if_neg hpairwise, if_neg hakm]
    have hcomplete : RsnComplete conf := ⟨hsome, hpairwise, hakm⟩
    have hstart := length_rsnStart conf (length_rsnGroupSuite hgroup)
    have hpmkid : (rsnStart conf group ++ toLE 2 1 ++ putBE 16 pmkid).length = (rsnStart conf group).length + 18 := by
      rw [List.length_append, List.length_append, length_toLE, length_putBE]
    have helem : ∀ body : Octets, (elem eidRsn body).length = 2 + body.length := fun body => by
      simp [elem]
      omega
    rw [wpaWriteRsnIe, hgroup]
    dsimp only
    rw [if_neg hpairwise, if_neg hakm]
    by_cases hroom : len < 2 + (rsnStart conf group).length + 2 + 16
    · rw [if_pos hroom]
      refine ⟨by dsimp only; omega, fun h => by dsimp only; omega, fun _ h => (by cases h), fun _ h => ?_⟩
      rw [rsnIeLen] at h
      omega
    rw [if_neg hroom]
    by_cases hmfp : conf.wpa.ieee80211w = .noMgmtFrameProtection
    · have hlen : rsnIeLen conf = 2 + (rsnStart conf group).length + 18 := by
        rw [rsnIeLen, if_pos hmfp]
        omega
      rw [if_pos hmfp]
      refine ⟨by dsimp only; omega, fun h => by dsimp only; omega, ?_, fun _ _ => rfl⟩
      rintro ie h
      obtain rfl := Option.some.inj h
      exact ⟨by rw [helem]; omega, by dsimp only; omega, by omega, hcomplete⟩
    · have hlen : rsnIeLen conf = 2 + (rsnStart conf group).length + 22 := by
        rw [rsnIeLen, if_neg hmfp]
        omega
      rw [if_neg hmfp]
      have hcmac : (rsnStart conf group ++ toLE 2 1 ++ putBE 16 pmkid ++ AuthIe.rsnCipherSuiteAes128Cmac).length =
          (rsnStart conf group).length + 22 := by
        rw [List.length_append, hpmkid]
        rfl
      by_cases hsix : len < 2 + (rsnStart conf group ++ toLE 2 1 ++ putBE 16 pmkid).length + 2 + 4
      · rw [if_pos hsix]
        refine ⟨by dsimp only; omega, fun h => by dsimp only; omega, fun _ h => (by cases h), fun _ h => ?_⟩
        omega
      rw [if_neg hsix]
      refine ⟨by dsimp only; omega, fun h => by dsimp only; omega, ?_, fun _ _ => rfl⟩
      rintro ie h
      obtain rfl := Option.some.inj h
      exact ⟨by rw [helem]; omega, by dsimp only; omega, by omega, hcomplete⟩

theorem length_mdie {len : ℕ} {mdie : Octets} (h : wpaWriteMdie conf len = some mdie) :
    mdie.length = 5 ∧ 5 ≤ len := by
  by_cases hlen : len < 2 + 3
  · rw [wpaWriteMdie, if_pos hlen] at h
    cases h
  rw [wpaWriteMdie, if_neg hlen] at h
  obtain rfl := Option.some.inj h
  refine ⟨?_, by omega⟩
  rw [List.length_append, List.length_append, length_putBE]
  rfl

theorem length_ftie {r0khId subelem ftie : Octets} {anonce snonce : BitVec 256} {len : ℕ}
    (h : wpaWriteFtie conf r0khId anonce snonce len subelem = some ftie) :
    ftie.length = 2 + Ftie.len + 2 + 6 + 2 + r0khId.length + subelem.length ∧ ftie.length ≤ len := by
  unfold wpaWriteFtie at h
  split_ifs at h with hlen
  obtain rfl := Option.some.inj h
  have hall : ∀ a b c d e f : UInt8, ([a, b] ++ List.replicate 18 0 ++ putBE 32 anonce ++ putBE 32 snonce ++ [c, d] ++
      putBE 6 conf.r1KeyHolder ++ [e, f] ++ r0khId ++ subelem).length =
      2 + Ftie.len + 2 + 6 + 2 + r0khId.length + subelem.length := fun a b c d e f => by
    simp only [List.length_append, List.length_cons, List.length_nil, List.length_replicate, length_putBE, Ftie.len]
  rw [hall]
  exact ⟨rfl, by omega⟩

variable {omac1 : BitVec 128 → Octets → BitVec 128}

theorem length_finishFtie {sm : RespSm} {mdie ftie rsnie ric : Octets} {mic : Bool} (h : 20 ≤ ftie.length) :
    (finishFtie omac1 sm mdie ftie rsnie ric mic).length = ftie.length := by
  have hcount : ∀ b : UInt8, (patch ftie 3 [b]).length = ftie.length := fun b =>
    length_patch (by rw [List.length_singleton]; omega)
  unfold finishFtie
  dsimp only
  split_ifs
  · rw [length_patch (by rw [length_putBE, hcount]; omega), hcount]
  · exact hcount _

end Sizes

section Result

variable {c : BlockCipher} {omac1 : BitVec 128 → Octets → BitVec 128} {conf : RespConf} {sm : RespSm} {maxLen : ℕ}
  {authFt : Bool} {reqIes : Octets} {ans : RespAnswers} {w : Writer} {rsnie : Octets}

-- What is needed behind the RSN IE
def RoomyBehind (c : BlockCipher) (conf : RespConf) (sm : RespSm) (maxLen start : ℕ) (authFt : Bool)
    (reqIes : Octets) (ans : RespAnswers) : Prop :=
  ∀ r0khId anonce snonce subelem, ftieParams c conf sm authFt ans = some (r0khId, anonce, snonce, subelem) →
    ∀ head, head = start + 5 + (2 + Ftie.len + 2 + 6 + 2 + r0khId.length + subelem.length) →
    head ≤ maxLen → NoTightRdie (maxLen - head) (requestsOf reqIes)

theorem behindRsn_fits (htight : w.Tight) (hfits : w.reach ≤ maxLen) :
    Fits maxLen (writeBehindRsn c omac1 conf sm maxLen authFt reqIes ans w rsnie) ↔
      RoomyBehind c conf sm maxLen w.out.length authFt reqIes ans := by
  unfold Writer.Tight at htight
  unfold writeBehindRsn RoomyBehind
  cases hmdie : wpaWriteMdie conf (maxLen - w.out.length) with
  | none =>
    have hshort : maxLen - w.out.length < 2 + 3 := by
      by_contra hlong
      rw [wpaWriteMdie, if_neg hlong] at hmdie
      cases hmdie
    refine ⟨fun _ r0khId anonce snonce subelem _ head hhead hle => ?_, fun _ => ⟨hfits, htight.trans hfits⟩⟩
    omega
  | some mdie =>
    obtain ⟨hlen, hroom⟩ := length_mdie hmdie
    have hput : (w.put mdie).Tight := by
      unfold Writer.Tight
      rw [Writer.length_put, Writer.reach_put]
      omega
    have hputFits : (w.put mdie).reach ≤ maxLen := by
      rw [Writer.reach_put]
      omega
    dsimp only
    cases hparams : ftieParams c conf sm authFt ans with
    | none =>
      refine ⟨fun _ r0khId anonce snonce subelem h => (by cases h), fun _ => ⟨hputFits, ?_⟩⟩
      exact hput.trans hputFits
    | some params =>
      obtain ⟨r0khId, anonce, snonce, subelem⟩ := params
      dsimp only
      cases hftie : wpaWriteFtie conf r0khId anonce snonce (maxLen - (w.put mdie).out.length) subelem with
      | none =>
        have hshort : maxLen - (w.put mdie).out.length <
            2 + Ftie.len + 2 + 6 + 2 + r0khId.length + subelem.length := by
          by_contra hlong
          rw [wpaWriteFtie, if_neg hlong] at hftie
          cases hftie
        refine ⟨fun _ r0khId' anonce' snonce' subelem' h head hhead hle => ?_,
          fun _ => ⟨hputFits, hput.trans hputFits⟩⟩
        obtain ⟨rfl, -, -, rfl⟩ : r0khId = r0khId' ∧ anonce = anonce' ∧ snonce = snonce' ∧
            subelem = subelem' := by simpa using h
        rw [Writer.length_put] at hshort
        omega
      | some ftie =>
        obtain ⟨hftieLen, hftieRoom⟩ := length_ftie hftie
        have hlarge : 20 ≤ ftie.length := by
          rw [hftieLen, Ftie.len]
          omega
        rw [Writer.length_put] at hftieRoom
        have hheadLen : ((w.put mdie).put ftie).out.length = w.out.length + 5 + ftie.length := by
          rw [Writer.length_put, Writer.length_put, hlen]
        have hhead : ((w.put mdie).put ftie).Tight := by
          unfold Writer.Tight
          rw [Writer.reach_put, Writer.length_put]
          omega
        have hheadFits : ((w.put mdie).put ftie).reach ≤ maxLen := by
          rw [Writer.reach_put, Writer.length_put]
          omega
        have hrun := ric_run hhead maxLen (requestsOf reqIes)
        have hiff := hrun.fits hheadFits
        have hback := hrun.out_le
        have hend := hrun.tight
        dsimp only
        generalize wpaFtProcessRic maxLen ((w.put mdie).put ftie) (requestsOf reqIes) = w' at hiff hback hend ⊢
        rw [hheadLen] at hiff hback
        have hsame : ∀ ftie' : Octets, ftie'.length = ftie.length →
            (patch w'.out (w.put mdie).out.length ftie').length = w'.out.length := fun ftie' h =>
          length_patch (by rw [h, Writer.length_put, hlen]; omega)
        have hout : (patch w'.out (w.put mdie).out.length
            (if authFt then finishFtie omac1 sm mdie ftie rsnie
              (w'.out.drop ((w.put mdie).put ftie).out.length) ans.mic else ftie)).length = w'.out.length := by
          refine hsame _ ?_
          split_ifs
          · exact length_finishFtie hlarge
          · rfl
        unfold Writer.Tight at hend
        constructor
        · rintro ⟨hreach, -⟩ r0khId' anonce' snonce' subelem' h head hhead' hle
          obtain ⟨rfl, -, -, rfl⟩ : r0khId = r0khId' ∧ anonce = anonce' ∧ snonce = snonce' ∧
              subelem = subelem' := by simpa using h
          rw [hhead', ← hftieLen]
          exact hiff.1 hreach
        · intro hall
          have hreach := hiff.2 (hall r0khId anonce snonce subelem rfl _ (by rw [← hftieLen]) (by omega))
          refine ⟨hreach, ?_⟩
          dsimp only
          rw [hout]
          exact hend.trans hreach

theorem writeFtIes_fits :
    Fits maxLen (writeFtIes c omac1 conf sm maxLen authFt reqIes ans) ↔ Roomy c conf sm maxLen authFt reqIes ans := by
  unfold writeFtIes writeRsnie
  cases authFt with
  | false =>
    have hbehind : Fits maxLen (writeBehindRsn c omac1 conf sm maxLen false reqIes ans {} []) ↔
        RoomyBehind c conf sm maxLen 0 false reqIes ans := behindRsn_fits (Nat.le_refl _) (Nat.zero_le _)
    refine hbehind.trans ⟨fun h => ⟨fun hauth => (by cases hauth), fun _ r0khId anonce snonce subelem hp hle => ?_⟩,
      fun h r0khId anonce snonce subelem hp head hhead hle => ?_⟩
    · exact h r0khId anonce snonce subelem hp _ rfl hle
    · rw [hhead] at hle ⊢
      exact h.rdie (fun hauth => (by cases hauth)) r0khId anonce snonce subelem hp hle
  | true =>
    have hstep := wpaWriteRsnIe_step conf maxLen sm.pmkR1Name
    generalize wpaWriteRsnIe conf maxLen sm.pmkR1Name = r at hstep ⊢
    obtain ⟨reach, ie⟩ := r
    simp only [if_true]
    cases ie with
    | none =>
      constructor
      · rintro ⟨hreach, -⟩
        refine ⟨fun _ => hstep.unchecked.trans hreach, fun hcomplete r0khId anonce snonce subelem hp hle => ?_⟩
        have hlen : headLen conf true r0khId subelem =
            rsnIeLen conf + 5 + (2 + Ftie.len + 2 + 6 + 2 + r0khId.length + subelem.length) := rfl
        have hsome := hstep.isSome (hcomplete rfl) (by omega)
        cases hsome
      · intro h
        exact ⟨hstep.fits (h.rsn rfl), Nat.zero_le _⟩
    | some ie =>
      obtain ⟨hlen, hreach, hfits, hcomplete⟩ := hstep.length ie rfl
      have hbehind : Fits maxLen (writeBehindRsn c omac1 conf sm maxLen true reqIes ans ⟨ie, reach⟩ ie) ↔
          RoomyBehind c conf sm maxLen (⟨ie, reach⟩ : Writer).out.length true reqIes ans :=
        behindRsn_fits (Nat.le_of_eq (hlen.trans hreach.symm)) (hreach.trans_le hfits)
      rw [RoomyBehind, show (⟨ie, reach⟩ : Writer).out.length = rsnIeLen conf from hlen] at hbehind
      refine hbehind.trans ⟨fun h => ⟨fun _ => ?_, fun _ r0khId anonce snonce subelem hp hle => ?_⟩,
        fun h r0khId anonce snonce subelem hp head hhead hle => ?_⟩
      · exact hstep.unchecked.trans (hreach.trans_le hfits)
      · exact h r0khId anonce snonce subelem hp _ rfl hle
      · rw [hhead] at hle ⊢
        exact h.rdie (fun _ => hcomplete) r0khId anonce snonce subelem hp hle

end Result

-- The response stays in its buffer exactly when there is room for what of the RSN IE is not checked, and at
-- no RDIE are there 4 or 5 octets left.
theorem wpaSmWriteAssocRespIes_fits (c : BlockCipher) (omac1 : BitVec 128 → Octets → BitVec 128) (conf : RespConf)
    (sm : Option RespSm) (maxLen : ℕ) (authFt : Bool) (reqIes : Octets) (ans : RespAnswers) :
    Fits maxLen (wpaSmWriteAssocRespIes c omac1 conf sm maxLen authFt reqIes ans) ↔
      ∀ sm', sm = some sm' → (∃ akm, sm'.wpaKeyMgmt = some (.inl akm)) →
        Roomy c conf sm' maxLen authFt reqIes ans := by
  have hnothing : Fits maxLen {} := ⟨Nat.zero_le _, Nat.zero_le _⟩
  cases sm with
  | none => exact ⟨fun _ _ h => (by cases h), fun _ => hnothing⟩
  | some sm =>
    rw [wpaSmWriteAssocRespIes]
    cases hakm : sm.wpaKeyMgmt with
    | none =>
      refine ⟨fun _ sm' h hft => ?_, fun _ => hnothing⟩
      obtain rfl := Option.some.inj h
      obtain ⟨akm, hft⟩ := hft
      rw [hakm] at hft
      cases hft
    | some akm =>
      cases akm with
      | inl akm =>
        refine (writeFtIes_fits).trans ⟨fun h sm' heq _ => ?_, fun h => h sm rfl ⟨akm, hakm⟩⟩
        obtain rfl := Option.some.inj heq
        exact h
      | inr akm =>
        refine ⟨fun _ sm' h hft => ?_, fun _ => hnothing⟩
        obtain rfl := Option.some.inj h
        obtain ⟨akm', hft⟩ := hft
        rw [hakm] at hft
        cases hft

-- A station that associates with FT, and asks for one resource
def sampleConf : RespConf :=
  { wpa := { protos := [.rsn], wpaKeyMgmt := [], wpaPairwise := [], wpaGroup := .ccmp, rsnPairwise := [.ccmp] }
    ftKeyMgmt := [.ftPsk]
    mobilityDomain := 0x6161
    r1KeyHolder := 1
    r0KeyHolder := [1] }

def sampleSm : RespSm := { addr := 2, apAddr := 1, wpaKeyMgmt := some (.inl .ftPsk) }

def sampleRequest : Octets := [55, 82, 0, 2] ++ List.replicate 80 0 ++ [57, 4, 1, 0, 0, 0]

-- Four octets are left for the RDIE of six.
theorem wpaSmWriteAssocRespIes_tight :
    ¬Fits 104 (wpaSmWriteAssocRespIes BlockCipher.transparent (fun _ _ => 0) sampleConf (some sampleSm) 104 false
      sampleRequest {}) := by
  intro h
  exact absurd h.1 (by decide +kernel)

end WpaSupplicant.Ap.Ft.RespIes

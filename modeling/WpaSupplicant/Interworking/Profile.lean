import WpaSupplicant.Interworking.Credentials

namespace WpaSupplicant.Interworking

open Bss

-- `enum phase2_types` of EAP-TTLS
inductive Phase2Type where
  | eap
  | mschapv2
  | mschap
  | pap
  | chap
  deriving DecidableEq, Repr

-- Whether `os_strstr` finds a string
def osStrstr (pat : List Char) : List Char → Bool
  | [] => pat.isEmpty
  | c :: s => pat.isPrefixOf (c :: s) || osStrstr pat s

-- How `eap_ttls_init` reads the phase2 setting
def eapTtlsPhase2Type (phase2 : String) : Phase2Type :=
  if osStrstr "autheap=".toList phase2.toList then .eap
  else if osStrstr "auth=MSCHAPV2".toList phase2.toList then .mschapv2
  else if osStrstr "auth=MSCHAP".toList phase2.toList then .mschap
  else if osStrstr "auth=PAP".toList phase2.toList then .pap
  else if osStrstr "auth=CHAP".toList phase2.toList then .chap
  else .eap

def innerType (innerNonEap : UInt8) : Option Phase2Type :=
  if innerNonEap = innerNonEapPap then some .pap
  else if innerNonEap = innerNonEapChap then some .chap
  else if innerNonEap = innerNonEapMschap then some .mschap
  else if innerNonEap = innerNonEapMschapv2 then some .mschapv2
  else none

section Spec

variable (conf : HomeConf)

-- The entry is the first usable one of the first matching realm that has a usable one.
def Advertised (realms : List NaiRealm) (e : NaiRealmEap) : Prop :=
  (isGiven conf.homeUsername = true ∧ isGiven conf.homePassword = true) ∧
    ∃ before r after, realms = before ++ r :: after ∧ naiRealmMatch conf r = true ∧
      (naiRealmCredUsername conf e = true ∧ ∃ earlier later, r.eap = earlier ++ e :: later ∧
        ∀ e' ∈ earlier, naiRealmCredUsername conf e' = false) ∧
      ∀ r' ∈ before, naiRealmMatch conf r' = true → ∀ e' ∈ r'.eap, naiRealmCredUsername conf e' = false

def NamesInner (e : NaiRealmEap) (phase2 : Option String) : Prop :=
  if e.innerMethod ≠ 0 then
    ∃ name, eapGetName conf e.innerMethod = some name ∧
      phase2 = some ((if e.method = eapTypeTtls then "autheap=" else "auth=") ++ name)
  else ∃ setting, phase2 = some setting ∧ some (eapTtlsPhase2Type setting) = innerType e.innerNonEap

structure SetUpFor (ssid : Octets) (e : NaiRealmEap) (net : Network) : Prop where
  ssid : net.ssid = ssid
  identity : net.identity = conf.homeUsername.map Subtype.val
  password : net.password = conf.homePassword.map Subtype.val
  outer : net.eapMethods = [e.method]
  inner : NamesInner conf e net.phase2

structure MatchesProfile (bss : Entry) (realms : List NaiRealm) : Prop where
  reported : interworkingCredentialsAvailableRealm conf bss = true ↔ ∃ e, Advertised conf realms e
  complete : ∀ e, Advertised conf realms e → ∀ ssid, getIe bss.ies eidSsid = some ssid → ssid ≠ [] →
    ∃ net, interworkingConnect conf bss = .network net ∧ SetUpFor conf ssid e net
  sound : ∀ net, interworkingConnect conf bss = .network net →
    ∃ e ssid, Advertised conf realms e ∧ getIe bss.ies eidSsid = some ssid ∧ SetUpFor conf ssid e net

def IsMschap (e : NaiRealmEap) : Prop := e.innerMethod = 0 ∧ e.innerNonEap = innerNonEapMschap

end Spec

section Lemmas

variable {conf : HomeConf}

variable {e : NaiRealmEap} {realms : List NaiRealm}

theorem naiRealmFindEap_eq_some {r : NaiRealm} : naiRealmFindEap conf r = some e ↔
    (isGiven conf.homeUsername = true ∧ isGiven conf.homePassword = true) ∧
      naiRealmCredUsername conf e = true ∧ ∃ earlier later, r.eap = earlier ++ e :: later ∧
        ∀ e' ∈ earlier, naiRealmCredUsername conf e' = false := by
  unfold naiRealmFindEap
  split
  · rename_i hgiven
    rw [Bool.and_eq_true] at hgiven
    rw [List.find?_eq_some_iff_append]
    simp [hgiven]
  · rename_i hgiven
    rw [Bool.and_eq_true] at hgiven
    simp [hgiven]

theorem naiRealmFindEap_eq_none {r : NaiRealm}
    (hgiven : isGiven conf.homeUsername = true ∧ isGiven conf.homePassword = true) :
    naiRealmFindEap conf r = none ↔ ∀ e ∈ r.eap, naiRealmCredUsername conf e = false := by
  unfold naiRealmFindEap
  rw [if_pos (by simp [hgiven])]
  simp

-- The loop of both passes stops at the entry that is advertised.
theorem findSome_eq_some :
    (realms.findSome? fun r => if naiRealmMatch conf r then naiRealmFindEap conf r else none) = some e ↔
      Advertised conf realms e := by
  rw [List.findSome?_eq_some_iff]
  constructor
  · rintro ⟨before, r, after, hrealms, hr, hbefore⟩
    obtain ⟨hmatch, hfind⟩ := Option.ite_none_right_eq_some.mp hr
    obtain ⟨hgiven, haccepted⟩ := naiRealmFindEap_eq_some.1 hfind
    refine ⟨hgiven, before, r, after, hrealms, hmatch, haccepted, ?_⟩
    intro r' hr' hmatch'
    have hnone := hbefore r' hr'
    rw [if_pos hmatch'] at hnone
    exact (naiRealmFindEap_eq_none hgiven).mp hnone
  · rintro ⟨hgiven, before, r, after, hrealms, hmatch, haccepted, hbefore⟩
    refine ⟨before, r, after, hrealms, ?_, ?_⟩
    · rw [if_pos hmatch]
      exact naiRealmFindEap_eq_some.2 ⟨hgiven, haccepted⟩
    · intro r' hr'
      split
      · rename_i hmatch'
        exact (naiRealmFindEap_eq_none hgiven).mpr (hbefore r' hr' hmatch')
      · rfl

theorem reported_iff {bss : Entry} (hparse : bss.anqp.naiRealm.bind naiRealmParse = some realms) :
    interworkingCredentialsAvailableRealm conf bss = true ↔ ∃ e, Advertised conf realms e := by
  obtain ⟨anqp, hanqp, hrealms⟩ := Option.bind_eq_some_iff.mp hparse
  unfold interworkingCredentialsAvailableRealm
  rw [hanqp]
  cases hhome : conf.homeRealm with
  | none =>
    simp only [Bool.false_eq_true, false_iff, not_exists]
    rintro e ⟨-, before, r, after, -, hmatch, -⟩
    simp [naiRealmMatch, hhome] at hmatch
  | some home =>
    simp only [hrealms, List.any_eq_true, Bool.and_eq_true, Option.isSome_iff_exists]
    simp only [← findSome_eq_some]
    rw [← Option.isSome_iff_exists, List.findSome?_isSome_iff]
    refine exists_congr fun r => and_congr_right fun _ => ?_
    by_cases hmatch : naiRealmMatch conf r = true
    · simp [hmatch, Option.isSome_iff_exists]
    · simp [hmatch]

theorem eapPeerGetType_eapGetName {type : UInt8} {name : String} (hexpanded : type ≠ eapTypeExpanded)
    (h : eapGetName conf type = some name) : eapPeerGetType conf name = type := by
  have hnames : ∀ m ∈ eapMethodTable, ∀ m' ∈ eapMethodTable, m.2 = m'.2 → m.1 = m'.1 := by decide
  rw [eapGetName, if_neg hexpanded] at h
  obtain ⟨m, hm, rfl⟩ := Option.map_eq_some_iff.mp h
  have hreg := List.find?_some hm
  simp only [Bool.and_eq_true, decide_eq_true_eq] at hreg
  obtain ⟨m', hm'⟩ : ∃ m', (eapMethodTable.find? fun x => x.2 = m.2 && conf.registered x.1) = some m' := by
    rw [← Option.isSome_iff_exists, List.find?_isSome]
    exact ⟨m, List.mem_of_find?_eq_some hm, by simp [hreg.2]⟩
  have hname := List.find?_some hm'
  simp only [Bool.and_eq_true, decide_eq_true_eq] at hname
  rw [eapPeerGetType, hm']
  show m'.1 = type
  rw [← hreg.1]
  exact hnames m' (List.mem_of_find?_eq_some hm') m (List.mem_of_find?_eq_some hm) hname.1

-- What holds of an entry that is accepted
structure Usable (conf : HomeConf) (e : NaiRealmEap) : Prop where
  method : e.method = eapTypeTtls ∨ e.method = eapTypePeap
  named : eapGetName conf e.method ≠ none
  inner : e.innerMethod ≠ 0 → eapGetName conf e.innerMethod ≠ none
  nonEap : e.innerMethod = 0 → e.method = eapTypeTtls ∧
    e.innerNonEap ∈ [innerNonEapPap, innerNonEapChap, innerNonEapMschap, innerNonEapMschapv2]

theorem usable_of_accepted (h : naiRealmCredUsername conf e = true) : Usable conf e := by
  have hzero : eapGetName conf 0 = none := by
    simp [eapGetName, eapMethodTable, eapTypeExpanded]
  unfold naiRealmCredUsername at h
  split at h
  · cases h
  rename_i hnamed
  split at h
  · cases h
  rename_i htunnel
  have hmethod : e.method = eapTypeTtls ∨ e.method = eapTypePeap := by
    by_contra hne
    exact htunnel (not_or.mp hne)
  split at h
  · cases h
  rename_i hpeap
  split at h
  · cases h
  rename_i hneither
  split at h
  · cases h
  rename_i hinner
  split at h
  · cases h
  rename_i hnonEap
  refine ⟨hmethod, hnamed, ?_, ?_⟩
  · intro hne hnone
    rcases hmethod with hmethod | hmethod
    · exact hinner ⟨hmethod, hne, hnone⟩
    · exact hpeap ⟨hmethod, hnone⟩
  · intro hinner
    have httls : e.method = eapTypeTtls := by
      refine hmethod.resolve_right fun hmethod => hpeap ⟨hmethod, ?_⟩
      rw [hinner]
      exact hzero
    refine ⟨httls, ?_⟩
    by_contra hother
    exact hnonEap ⟨httls, fun hnone => hneither ⟨httls, hinner, hnone⟩, hother⟩

def networkFor (conf : HomeConf) (ssid : Octets) (e : NaiRealmEap) : Network :=
  { ssid := ssid
    eapMethods := [e.method]
    identity := conf.homeUsername.map Subtype.val
    password := conf.homePassword.map Subtype.val
    phase2 := phase2Setting conf e
    caCert := givenOnly conf.homeCaCert }

theorem interworkingConnect_eq {bss : Entry} {ssid : Octets}
    (hparse : bss.anqp.naiRealm.bind naiRealmParse = some realms) (hadv : Advertised conf realms e)
    (hssid : getIe bss.ies eidSsid = some ssid) (hne : ssid ≠ []) :
    interworkingConnect conf bss = .network (networkFor conf ssid e) := by
  have hfound := findSome_eq_some.2 hadv
  obtain ⟨⟨huser, hpass⟩, -, -, -, -, -, ⟨haccepted, -⟩, -⟩ := hadv
  have husable := usable_of_accepted haccepted
  obtain ⟨name, hname⟩ := Option.ne_none_iff_exists'.mp husable.named
  have hexpanded : e.method ≠ eapTypeExpanded := by
    rcases husable.method with h | h <;> rw [h] <;> decide
  have htype := eapPeerGetType_eapGetName hexpanded hname
  have hpos : e.method ≠ 0 := by
    rcases husable.method with h | h <;> rw [h] <;> decide
  unfold interworkingConnect
  rw [hssid]
  dsimp only
  rw [if_neg hne, hparse, Option.getD_some, hfound]
  dsimp only
  rw [hname]
  dsimp only
  rw [htype, if_neg hpos]
  simp [networkFor, givenOnly, huser, hpass]

theorem exists_of_network {bss : Entry} {net : Network}
    (hparse : bss.anqp.naiRealm.bind naiRealmParse = some realms)
    (h : interworkingConnect conf bss = .network net) :
    ∃ e ssid, Advertised conf realms e ∧ getIe bss.ies eidSsid = some ssid ∧ ssid ≠ [] := by
  unfold interworkingConnect at h
  split at h
  · cases h
  rename_i ssid hssid
  split at h
  · cases h
  rename_i hne
  rw [hparse, Option.getD_some] at h
  dsimp only at h
  split at h
  · cases h
  rename_i e hfound
  exact ⟨e, ssid, findSome_eq_some.1 hfound, hssid, hne⟩

theorem nonEapPhase2_type {v : UInt8}
    (hv : v ∈ [innerNonEapPap, innerNonEapChap, innerNonEapMschap, innerNonEapMschapv2]) :
    ∃ setting, nonEapPhase2 v = some setting ∧
      (some (eapTtlsPhase2Type setting) = innerType v ↔ v ≠ innerNonEapMschap) := by
  simp only [List.mem_cons, List.not_mem_nil, or_false] at hv
  rcases hv with rfl | rfl | rfl | rfl
  · exact ⟨"auth=PAP", rfl, by decide⟩
  · exact ⟨"auth=CHAP", rfl, by decide⟩
  · exact ⟨"auth=CHAP", rfl, by decide⟩
  · exact ⟨"auth=MSCHAPV2", rfl, by decide⟩

theorem namesInner_iff (husable : Usable conf e) :
    NamesInner conf e (phase2Setting conf e) ↔ ¬IsMschap e := by
  unfold NamesInner IsMschap
  by_cases hinner : e.innerMethod = 0
  · obtain ⟨httls, hnonEap⟩ := husable.nonEap hinner
    rw [if_neg (by simp [hinner])]
    rw [phase2Setting, if_pos httls, if_neg (by simp [hinner])]
    obtain ⟨setting, hsetting, htype⟩ := nonEapPhase2_type hnonEap
    simp [hsetting, htype, hinner]
  · rw [if_pos hinner]
    obtain ⟨name, hname⟩ := Option.ne_none_iff_exists'.mp (husable.inner hinner)
    simp only [hinner, false_and, not_false_eq_true, iff_true]
    refine ⟨name, hname, ?_⟩
    rcases husable.method with hmethod | hmethod
    · rw [phase2Setting, if_pos hmethod, if_pos hinner, if_pos hmethod, hname]
      rfl
    have hne : e.method ≠ eapTypeTtls := by
      rw [hmethod]
      decide
    rw [phase2Setting, if_neg hne, if_pos hmethod, if_neg hne, hname]
    rfl

end Lemmas

theorem profile_matches_advertised (conf : HomeConf) (bss : Entry) (realms : List NaiRealm)
    (hparse : bss.anqp.naiRealm.bind naiRealmParse = some realms) : MatchesProfile conf bss realms ↔
      ∀ e ssid, Advertised conf realms e → getIe bss.ies eidSsid = some ssid → ssid ≠ [] → ¬IsMschap e := by
  have husable : ∀ e, Advertised conf realms e → Usable conf e := by
    rintro e ⟨-, -, -, -, -, -, ⟨haccepted, -⟩, -⟩
    exact usable_of_accepted haccepted
  constructor
  · intro h e ssid hadv hssid hne
    obtain ⟨net, hconnect, hsetUp⟩ := h.complete e hadv ssid hssid hne
    rw [interworkingConnect_eq hparse hadv hssid hne] at hconnect
    cases hconnect
    exact (namesInner_iff (husable e hadv)).mp hsetUp.inner
  · intro h
    have hcomplete : ∀ e ssid, Advertised conf realms e → getIe bss.ies eidSsid = some ssid → ssid ≠ [] →
        SetUpFor conf ssid e (networkFor conf ssid e) := fun e ssid hadv hssid hne =>
      ⟨rfl, rfl, rfl, rfl, (namesInner_iff (husable e hadv)).mpr (h e ssid hadv hssid hne)⟩
    refine ⟨reported_iff hparse, ?_, ?_⟩
    · intro e hadv ssid hssid hne
      exact ⟨_, interworkingConnect_eq hparse hadv hssid hne, hcomplete e ssid hadv hssid hne⟩
    · intro net hnet
      obtain ⟨e, ssid, hadv, hssid, hne⟩ := exists_of_network hparse hnet
      rw [interworkingConnect_eq hparse hadv hssid hne] at hnet
      cases hnet
      exact ⟨e, ssid, hadv, hssid, hcomplete e ssid hadv hssid hne⟩

def ttlsBss (innerNonEap : UInt8) : Entry :=
  { serial := 0
    lastUpdateIdx := 0
    ies := [0, 1, 0x41]
    anqp := { naiRealm := some [1, 0, 10, 0, 0, 1, 0x62, 1, 5, 21, 1, 2, 1, innerNonEap] } }

def ttlsEap (innerNonEap : UInt8) : NaiRealmEap := { method := eapTypeTtls, innerNonEap := innerNonEap }

def ttlsRealm (innerNonEap : UInt8) : NaiRealm := { encoding := 0, realm := [0x62], eap := [ttlsEap innerNonEap] }

theorem singleton_noNul {b : UInt8} (h : 0 ≠ b) : 0 ∉ [b] := fun hmem => h (List.mem_singleton.mp hmem)

def homeConf : HomeConf :=
  { registered := fun _ => true
    homeRealm := some ⟨[0x62], singleton_noNul (by decide)⟩
    homeUsername := some ⟨[0x75], singleton_noNul (by decide)⟩
    homePassword := some ⟨[0x70], singleton_noNul (by decide)⟩ }

theorem pap_profile_matches : MatchesProfile homeConf (ttlsBss innerNonEapPap) [ttlsRealm innerNonEapPap] ↔
    ∀ e ssid, Advertised homeConf [ttlsRealm innerNonEapPap] e →
      getIe (ttlsBss innerNonEapPap).ies eidSsid = some ssid → ssid ≠ [] → ¬IsMschap e :=
  profile_matches_advertised homeConf (ttlsBss innerNonEapPap) [ttlsRealm innerNonEapPap] (by decide)

theorem mschap_set_as_chap :
    (ttlsBss innerNonEapMschap).anqp.naiRealm.bind naiRealmParse = some [ttlsRealm innerNonEapMschap] ∧
      ¬MatchesProfile homeConf (ttlsBss innerNonEapMschap) [ttlsRealm innerNonEapMschap] := by
  have hparse : (ttlsBss innerNonEapMschap).anqp.naiRealm.bind naiRealmParse = some [ttlsRealm innerNonEapMschap] := by
    decide
  have hadv : Advertised homeConf [ttlsRealm innerNonEapMschap] (ttlsEap innerNonEapMschap) :=
    ⟨by decide, [], _, [], rfl, by decide, ⟨by decide, [], [], rfl, by simp⟩, by simp⟩
  have hssid : getIe (ttlsBss innerNonEapMschap).ies eidSsid = some [0x41] := by decide
  refine ⟨hparse, fun h => ?_⟩
  obtain ⟨net, hnet, hsetUp⟩ := h.complete _ hadv [0x41] hssid (by decide)
  rw [interworkingConnect_eq hparse hadv hssid (by decide)] at hnet
  cases hnet
  exact (namesInner_iff ⟨by decide, by decide, by decide, by decide⟩).mp hsetUp.inner ⟨rfl, rfl⟩

end WpaSupplicant.Interworking

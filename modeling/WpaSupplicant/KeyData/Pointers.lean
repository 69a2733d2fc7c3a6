import Mathlib.Tactic.Common
import WpaSupplicant.KeyData

namespace WpaSupplicant.KeyData.Pointers

open Lib.Octets

-- The two Key Data parsers with the pointers they return, as offsets into the buffer; built
-- with `CONFIG_IEEE80211R`, `CONFIG_IEEE80211W` and `CONFIG_PEERKEY`.

-- A pointer and the length kept beside it
structure Slice where
  off : ℕ
  len : ℕ
  deriving DecidableEq, Repr

-- `struct wpa_eapol_ie_parse` of the Authenticator; `pmkid` has no length of its own
structure KdeParse where
  wpaIe : Option Slice := none
  rsnIe : Option Slice := none
  pmkid : Option ℕ := none
  gtk : Option Slice := none
  macAddr : Option Slice := none
  smk : Option Slice := none
  nonce : Option Slice := none
  lifetime : Option Slice := none
  error : Option Slice := none
  igtk : Option Slice := none
  mdie : Option Slice := none
  ftie : Option Slice := none
  deriving DecidableEq, Repr

-- `struct wpa_eapol_ie_parse` of the Supplicant: the same fields and six more
structure EapolIeParse extends KdeParse where
  reassocDeadline : Option ℕ := none
  keyLifetime : Option ℕ := none
  lnkid : Option Slice := none
  extCapab : Option Slice := none
  suppRates : Option Slice := none
  extSuppRates : Option Slice := none
  deriving DecidableEq, Repr

def octet (buf : Octets) (i : ℕ) : UInt8 := buf.getD i 0

-- `pos[1]` and `RSN_SELECTOR_GET(pos + 2)`
def lengthAt (buf : Octets) (pos : ℕ) : ℕ := (octet buf (pos + 1)).toNat

def selectorAt (buf : Octets) (pos : ℕ) : Octets := (buf.drop (pos + 2)).take 4

def elemAt (buf : Octets) (pos : ℕ) : Slice := ⟨pos, lengthAt buf pos + 2⟩

def kdeAt (buf : Octets) (pos : ℕ) : Slice := ⟨pos + 2 + 4, lengthAt buf pos - 4⟩

namespace Supp

-- `wpa_parse_generic` of `rsn_supp/wpa_ie.c`
def wpaParseGeneric (buf : Octets) (pos : ℕ) (ie : EapolIeParse) : ℤ × EapolIeParse :=
  let len := lengthAt buf pos
  let sel := selectorAt buf pos
  if len = 0 then (1, ie)
  else if 6 ≤ len ∧ sel = wpaOuiType ∧ octet buf (pos + 2 + 4) = 1 ∧
      octet buf (pos + 2 + 4 + 1) = 0 then
    (0, { ie with wpaIe := some (elemAt buf pos) })
  else if pos + 1 + 4 < buf.length ∧ 4 + 16 ≤ len ∧ sel = rsnKeyDataPmkid then
    (0, { ie with pmkid := some (pos + 2 + 4) })
  else if 4 + 2 < len ∧ sel = rsnKeyDataGroupkey then
    (0, { ie with gtk := some (kdeAt buf pos) })
  else if 4 + 2 < len ∧ sel = rsnKeyDataMacAddr then
    (0, { ie with macAddr := some (kdeAt buf pos) })
  else if 4 + 2 < len ∧ sel = rsnKeyDataSmk then
    (0, { ie with smk := some (kdeAt buf pos) })
  else if 4 + 2 < len ∧ sel = rsnKeyDataNonce then
    (0, { ie with nonce := some (kdeAt buf pos) })
  else if 4 + 2 < len ∧ sel = rsnKeyDataLifetime then
    (0, { ie with lifetime := some (kdeAt buf pos) })
  else if 4 + 2 < len ∧ sel = rsnKeyDataError then
    (0, { ie with error := some (kdeAt buf pos) })
  else if 4 + 2 < len ∧ sel = rsnKeyDataIgtk then
    (0, { ie with igtk := some (kdeAt buf pos) })
  else (0, ie)

def plainElem (buf : Octets) (pos : ℕ) (ie : EapolIeParse) : EapolIeParse :=
  let id := octet buf pos
  if id = eidRsn then { ie with rsnIe := some (elemAt buf pos) }
  else if id = eidMobilityDomain then { ie with mdie := some (elemAt buf pos) }
  else if id = eidFastBssTransition then { ie with ftie := some (elemAt buf pos) }
  else if id = eidTimeoutInterval ∧ 5 ≤ lengthAt buf pos then
    if octet buf (pos + 2) = timeoutReassocDeadline then { ie with reassocDeadline := some pos }
    else if octet buf (pos + 2) = timeoutKeyLifetime then { ie with keyLifetime := some pos }
    else ie
  else if id = eidLinkId then
    if 18 ≤ lengthAt buf pos then { ie with lnkid := some (elemAt buf pos) } else ie
  else if id = eidExtCapab then { ie with extCapab := some (elemAt buf pos) }
  else if id = eidSuppRates then { ie with suppRates := some (elemAt buf pos) }
  else if id = eidExtSuppRates then { ie with extSuppRates := some (elemAt buf pos) }
  else ie

def parseFrom (buf : Octets) (pos : ℕ) (ie : EapolIeParse) : ℤ × EapolIeParse :=
  if pos + 1 < buf.length then
    let next := pos + (2 + lengthAt buf pos)
    if octet buf pos = 0xdd ∧ (pos = buf.length - 1 ∨ lengthAt buf pos = 0) then (0, ie)
    else if buf.length < pos + 2 + lengthAt buf pos then (-1, ie)
    else if octet buf pos = eidVendorSpecific then
      match wpaParseGeneric buf pos ie with
      | (ret, ie') =>
        if ret < 0 then (ret, ie')
        else if 0 < ret then (0, ie')
        else parseFrom buf next ie'
    else parseFrom buf next (plainElem buf pos ie)
  else (0, ie)
termination_by buf.length - pos

def wpaSupplicantParseIes (buf : Octets) : ℤ × EapolIeParse := parseFrom buf 0 {}

end Supp

namespace Auth

-- `wpa_parse_generic` of `ap/wpa_auth_ie.c`
def wpaParseGeneric (buf : Octets) (pos : ℕ) (ie : KdeParse) : ℤ × KdeParse :=
  let len := lengthAt buf pos
  let sel := selectorAt buf pos
  if len = 0 then (1, ie)
  else if 6 ≤ len ∧ sel = wpaOuiType ∧ octet buf (pos + 2 + 4) = 1 ∧
      octet buf (pos + 2 + 4 + 1) = 0 then
    (0, { ie with wpaIe := some (elemAt buf pos) })
  else if pos + 1 + 4 < buf.length ∧ 4 + 16 ≤ len ∧ sel = rsnKeyDataPmkid then
    (0, { ie with pmkid := some (pos + 2 + 4) })
  else if 4 + 2 < len ∧ sel = rsnKeyDataGroupkey then
    (0, { ie with gtk := some (kdeAt buf pos) })
  else if 4 + 2 < len ∧ sel = rsnKeyDataMacAddr then
    (0, { ie with macAddr := some (kdeAt buf pos) })
  else if 4 + 2 < len ∧ sel = rsnKeyDataSmk then
    (0, { ie with smk := some (kdeAt buf pos) })
  else if 4 + 2 < len ∧ sel = rsnKeyDataNonce then
    (0, { ie with nonce := some (kdeAt buf pos) })
  else if 4 + 2 < len ∧ sel = rsnKeyDataLifetime then
    (0, { ie with lifetime := some (kdeAt buf pos) })
  else if 4 + 2 < len ∧ sel = rsnKeyDataError then
    (0, { ie with error := some (kdeAt buf pos) })
  else if 4 + 2 < len ∧ sel = rsnKeyDataIgtk then
    (0, { ie with igtk := some (kdeAt buf pos) })
  else (0, ie)

def plainElem (buf : Octets) (pos : ℕ) (ie : KdeParse) : KdeParse :=
  let id := octet buf pos
  if id = eidRsn then { ie with rsnIe := some (elemAt buf pos) }
  else if id = eidMobilityDomain then { ie with mdie := some (elemAt buf pos) }
  else if id = eidFastBssTransition then { ie with ftie := some (elemAt buf pos) }
  else ie

def parseFrom (buf : Octets) (pos : ℕ) (ie : KdeParse) : ℤ × KdeParse :=
  if pos + 1 < buf.length then
    let next := pos + (2 + lengthAt buf pos)
    if octet buf pos = 0xdd ∧ (pos = buf.length - 1 ∨ lengthAt buf pos = 0) then (0, ie)
    else if buf.length < pos + 2 + lengthAt buf pos then (-1, ie)
    else if octet buf pos = eidVendorSpecific then
      match wpaParseGeneric buf pos ie with
      | (ret, ie') =>
        if ret < 0 then (ret, ie')
        else if 0 < ret then (0, ie')
        else parseFrom buf next ie'
    else parseFrom buf next (plainElem buf pos ie)
  else (0, ie)
termination_by buf.length - pos

def wpaParseKdeIes (buf : Octets) : ℤ × KdeParse := parseFrom buf 0 {}

end Auth

-- A result of the Supplicant's parser, less what the Authenticator's does not have
def shared (r : ℤ × EapolIeParse) : ℤ × KdeParse := (r.1, r.2.toKdeParse)

theorem wpaParseGeneric_agree (buf : Octets) (pos : ℕ) (ie : EapolIeParse) :
    shared (Supp.wpaParseGeneric buf pos ie) = Auth.wpaParseGeneric buf pos ie.toKdeParse := by
  unfold Supp.wpaParseGeneric Auth.wpaParseGeneric
  simp only [apply_ite shared]
  rfl

theorem plainElem_agree (buf : Octets) (pos : ℕ) (ie : EapolIeParse) :
    (Supp.plainElem buf pos ie).toKdeParse = Auth.plainElem buf pos ie.toKdeParse := by
  unfold Supp.plainElem Auth.plainElem
  simp only [apply_ite EapolIeParse.toKdeParse, ite_self]

-- The loops stay in step from any common position.
theorem parseFrom_agree (buf : Octets) (pos : ℕ) (ie : EapolIeParse) :
    shared (Supp.parseFrom buf pos ie) = Auth.parseFrom buf pos ie.toKdeParse := by
  induction hn : buf.length - pos using Nat.strong_induction_on generalizing pos ie with
  | _ n ih =>
    subst hn
    rw [Supp.parseFrom, Auth.parseFrom]
    by_cases hpos : pos + 1 < buf.length
    · have hless : buf.length - (pos + (2 + lengthAt buf pos)) < buf.length - pos := by omega
      have hret : (shared (Supp.wpaParseGeneric buf pos ie)).1 =
          (Supp.wpaParseGeneric buf pos ie).1 := rfl
      rw [if_pos hpos, if_pos hpos, ← wpaParseGeneric_agree, ← plainElem_agree]
      dsimp only
      rw [hret]
      split_ifs with hpad hunder hvendor hneg hmark
      · rfl
      · rfl
      · rfl
      · rfl
      · exact ih _ hless _ _ rfl
      · exact ih _ hless _ _ rfl
    · rw [if_neg hpos, if_neg hpos]
      rfl

section Inside

-- What a field designates lies inside a buffer of `n` octets.
def Fits (n : ℕ) : Option Slice → Prop
  | none => True
  | some s => s.off + s.len ≤ n

structure KdeParse.Inside (buf : Octets) (ie : KdeParse) : Prop where
  wpaIe : Fits buf.length ie.wpaIe
  rsnIe : Fits buf.length ie.rsnIe
  pmkid : Fits buf.length (ie.pmkid.map (Slice.mk · 16))
  gtk : Fits buf.length ie.gtk
  macAddr : Fits buf.length ie.macAddr
  smk : Fits buf.length ie.smk
  nonce : Fits buf.length ie.nonce
  lifetime : Fits buf.length ie.lifetime
  error : Fits buf.length ie.error
  igtk : Fits buf.length ie.igtk
  mdie : Fits buf.length ie.mdie
  ftie : Fits buf.length ie.ftie

structure EapolIeParse.Inside (buf : Octets) (ie : EapolIeParse) : Prop
    extends KdeParse.Inside buf ie.toKdeParse where
  reassocDeadline : Fits buf.length (ie.reassocDeadline.map (elemAt buf))
  keyLifetime : Fits buf.length (ie.keyLifetime.map (elemAt buf))
  lnkid : Fits buf.length ie.lnkid
  extCapab : Fits buf.length ie.extCapab
  suppRates : Fits buf.length ie.suppRates
  extSuppRates : Fits buf.length ie.extSuppRates

variable {buf : Octets} {pos : ℕ} {ie : EapolIeParse}

private theorem inside_ite {c : Prop} [Decidable c] {a b : EapolIeParse}
    (ha : c → a.Inside buf) (hb : b.Inside buf) : (if c then a else b).Inside buf := by
  split
  · exact ha ‹_›
  · exact hb

private theorem fits_elemAt (hfit : pos + 2 + lengthAt buf pos ≤ buf.length) :
    Fits buf.length (some (elemAt buf pos)) := by
  simp only [Fits, elemAt]
  omega

theorem wpaParseGeneric_inside (hfit : pos + 2 + lengthAt buf pos ≤ buf.length)
    (h : ie.Inside buf) : (Supp.wpaParseGeneric buf pos ie).2.Inside buf := by
  have helem := fits_elemAt hfit
  have hkde (hlen : 4 + 2 < lengthAt buf pos) : Fits buf.length (some (kdeAt buf pos)) := by
    simp only [Fits, kdeAt]
    omega
  have hpmkid (hlen : 4 + 16 ≤ lengthAt buf pos) : Fits buf.length (some ⟨pos + 2 + 4, 16⟩) := by
    simp only [Fits]
    omega
  unfold Supp.wpaParseGeneric
  simp only [apply_ite Prod.snd]
  refine inside_ite (fun _ => h) ?_
  refine inside_ite (fun _ => { h with wpaIe := helem }) ?_
  refine inside_ite (fun hc => { h with pmkid := hpmkid hc.2.1 }) ?_
  refine inside_ite (fun hc => { h with gtk := hkde hc.1 }) ?_
  refine inside_ite (fun hc => { h with macAddr := hkde hc.1 }) ?_
  refine inside_ite (fun hc => { h with smk := hkde hc.1 }) ?_
  refine inside_ite (fun hc => { h with nonce := hkde hc.1 }) ?_
  refine inside_ite (fun hc => { h with lifetime := hkde hc.1 }) ?_
  refine inside_ite (fun hc => { h with error := hkde hc.1 }) ?_
  exact inside_ite (fun hc => { h with igtk := hkde hc.1 }) h

theorem plainElem_inside (hfit : pos + 2 + lengthAt buf pos ≤ buf.length)
    (h : ie.Inside buf) : (Supp.plainElem buf pos ie).Inside buf := by
  have helem := fits_elemAt hfit
  unfold Supp.plainElem
  refine inside_ite (fun _ => { h with rsnIe := helem }) ?_
  refine inside_ite (fun _ => { h with mdie := helem }) ?_
  refine inside_ite (fun _ => { h with ftie := helem }) ?_
  refine inside_ite (fun _ => inside_ite (fun _ => { h with reassocDeadline := helem })
    (inside_ite (fun _ => { h with keyLifetime := helem }) h)) ?_
  refine inside_ite (fun _ => inside_ite (fun _ => { h with lnkid := helem }) h) ?_
  refine inside_ite (fun _ => { h with extCapab := helem }) ?_
  refine inside_ite (fun _ => { h with suppRates := helem }) ?_
  exact inside_ite (fun _ => { h with extSuppRates := helem }) h

theorem parseFrom_inside (h : ie.Inside buf) : (Supp.parseFrom buf pos ie).2.Inside buf := by
  induction hn : buf.length - pos using Nat.strong_induction_on generalizing pos ie with
  | _ n ih =>
    subst hn
    rw [Supp.parseFrom]
    by_cases hpos : pos + 1 < buf.length
    · have hless : buf.length - (pos + (2 + lengthAt buf pos)) < buf.length - pos := by omega
      rw [if_pos hpos]
      dsimp only
      split_ifs with hpad hunder hvendor hneg hmark
      · exact h
      · exact h
      · exact wpaParseGeneric_inside (by omega) h
      · exact wpaParseGeneric_inside (by omega) h
      · exact ih _ hless (wpaParseGeneric_inside (by omega) h) rfl
      · exact ih _ hless (plainElem_inside (by omega) h) rfl
    · rw [if_neg hpos]
      exact h

theorem inside_empty (buf : Octets) : ({} : EapolIeParse).Inside buf := by
  constructor
  · constructor <;> trivial
  all_goals trivial

end Inside

-- The parsers return the same code and the same pointers and lengths in the fields they share,
-- and nothing that either returns reaches outside the buffer.
theorem parsers_agree (buf : Octets) :
    (Supp.wpaSupplicantParseIes buf).1 = (Auth.wpaParseKdeIes buf).1 ∧
      (Supp.wpaSupplicantParseIes buf).2.toKdeParse = (Auth.wpaParseKdeIes buf).2 ∧
      (Supp.wpaSupplicantParseIes buf).2.Inside buf ∧ (Auth.wpaParseKdeIes buf).2.Inside buf := by
  have hagree := parseFrom_agree buf 0 {}
  have hret : (Supp.wpaSupplicantParseIes buf).1 = (Auth.wpaParseKdeIes buf).1 :=
    congrArg Prod.fst hagree
  have hie : (Supp.wpaSupplicantParseIes buf).2.toKdeParse = (Auth.wpaParseKdeIes buf).2 :=
    congrArg Prod.snd hagree
  have hin : (Supp.wpaSupplicantParseIes buf).2.Inside buf := parseFrom_inside (inside_empty buf)
  refine ⟨hret, hie, hin, ?_⟩
  rw [← hie]
  exact hin.toInside

end WpaSupplicant.KeyData.Pointers

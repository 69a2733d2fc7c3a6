import Mathlib.Tactic.Common
import WpaSupplicant.AuthIe
import WpaSupplicant.Authenticator.Send

namespace WpaSupplicant.KeyData

open Lib.Octets

section Parse

variable (other : UInt8 → Octets → EapolIeParse → EapolIeParse)

-- The buffer bounds the number of elements, so that any larger fuel gives the same result.
theorem parseElems_fuel (fuel : ℕ) (buf : Octets) (ie : EapolIeParse)
    (hfuel : buf.length ≤ fuel) :
    parseElems other fuel buf ie = parseElems other buf.length buf ie := by
  induction fuel using Nat.strong_induction_on generalizing buf ie with
  | _ fuel ih =>
    match fuel, buf with
    | 0, buf =>
      have hnil : buf = [] := by simpa using hfuel
      subst hnil
      rfl
    | fuel + 1, [] => simp [parseElems]
    | fuel + 1, [b] => simp [parseElems]
    | fuel + 1, id :: len :: rest =>
      simp only [List.length_cons] at hfuel ⊢
      have hdrop : (rest.drop len.toNat).length ≤ rest.length := by simp
      -- both sides take the same branch and go on with the same rest of the buffer
      have hrest (ie' : EapolIeParse) :
          parseElems other fuel (rest.drop len.toNat) ie' =
            parseElems other (rest.length + 1) (rest.drop len.toNat) ie' := by
        rw [ih fuel (by omega) _ ie' (by omega), ih (rest.length + 1) (by omega) _ ie' (by omega)]
      rw [parseElems, parseElems]
      split
      · rfl
      split
      · rfl
      split
      · cases wpaParseGeneric (rest.take len.toNat) ie with
        | none => rfl
        | some ie' => exact hrest ie'
      · exact hrest _

private theorem toNat_lengthOctet (body : Octets) (hlen : body.length ≤ 255) :
    (UInt8.ofNat body.length).toNat = body.length := by
  rw [UInt8.toNat_ofNat']
  omega

theorem parseElems_vendor (body rest : Octets) (ie ie' : EapolIeParse)
    (hlen : body.length ≤ 255) (hgen : wpaParseGeneric body ie = some ie') :
    parseElems other (elem eidVendorSpecific body ++ rest).length
      (elem eidVendorSpecific body ++ rest) ie = parseElems other rest.length rest ie' := by
  have hnat := toNat_lengthOctet body hlen
  have hpos : body.length ≠ 0 := by
    intro h0
    simp [wpaParseGeneric, h0] at hgen
  have hne : UInt8.ofNat body.length ≠ 0 := by
    intro h0
    rw [h0] at hnat
    exact hpos hnat.symm
  simp only [elem, List.cons_append, List.length_cons]
  rw [parseElems, if_neg (by simp [hne]), if_neg (by simp [hnat]), if_pos rfl, hnat,
    List.take_left, List.drop_left, hgen]
  exact parseElems_fuel other _ rest ie' (by simp; omega)

theorem parseElems_other (id : UInt8) (body rest : Octets) (ie : EapolIeParse)
    (hid : id ≠ eidVendorSpecific) (hlen : body.length ≤ 255) :
    parseElems other (elem id body ++ rest).length (elem id body ++ rest) ie =
      parseElems other rest.length rest (other id body ie) := by
  have hnat := toNat_lengthOctet body hlen
  have hdd : ¬ (id = 0xdd ∧ UInt8.ofNat body.length = 0) := fun h => hid h.1
  simp only [elem, List.cons_append, List.length_cons]
  rw [parseElems, if_neg hdd, if_neg (by simp [hnat]), if_neg hid, hnat, List.take_left,
    List.drop_left]
  exact parseElems_fuel other _ rest _ (by simp; omega)

-- All padding lengths end the loop: none, a lone `dd`, and `dd` followed by zeros.
theorem parseElems_padding (n : ℕ) (ie : EapolIeParse) :
    let pad := if n = 0 then [] else (0xdd :: List.replicate (n - 1) 0 : Octets)
    parseElems other pad.length pad ie = (true, ie) := by
  match n with
  | 0 => rfl
  | 1 => rfl
  | n + 2 => simp [parseElems, List.replicate_succ]

end Parse

theorem wpaAddKde_eq_elem (kde data data2 : Octets) (hkde : kde.length = 4) :
    wpaAddKde kde data data2 = elem eidVendorSpecific (kde ++ data ++ data2) := by
  simp [wpaAddKde, elem, hkde, Nat.add_assoc]

theorem wpaParseGeneric_gtk (keyidx : ℕ) (gtk : Octets) (ie : EapolIeParse) (hgtk : gtk ≠ []) :
    wpaParseGeneric (rsnKeyDataGroupkey ++ [UInt8.ofNat (keyidx % 4), 0] ++ gtk) ie =
      some { ie with gtk := some ([UInt8.ofNat (keyidx % 4), 0] ++ gtk) } := by
  have hpos : 0 < gtk.length := List.length_pos_iff.mpr hgtk
  simp [wpaParseGeneric, rsnKeyDataGroupkey, rsnSelector, wpaOuiType, rsnKeyDataPmkid, hpos]

theorem wpaParseGeneric_igtk (data : Octets) (ie : EapolIeParse) (hdata : 2 < data.length) :
    wpaParseGeneric (rsnKeyDataIgtk ++ data) ie = some { ie with igtk := some data } := by
  have h6 : 6 < 4 + data.length := by omega
  simp [wpaParseGeneric, rsnKeyDataIgtk, rsnSelector, wpaOuiType, rsnKeyDataPmkid,
    rsnKeyDataGroupkey, rsnKeyDataMacAddr, rsnKeyDataSmk, rsnKeyDataNonce, rsnKeyDataLifetime,
    rsnKeyDataError]
  omega

theorem wpaParseGeneric_wpaIe (body : Octets) (ie : EapolIeParse) :
    wpaParseGeneric (wpaOuiType ++ toLE 2 1 ++ body) ie =
      some { ie with wpaIe := some (elem eidVendorSpecific (wpaOuiType ++ toLE 2 1 ++ body)) } := by
  simp [wpaParseGeneric, wpaOuiType, rsnSelector, toLE]

theorem padKeyData_length (kde : Octets) : (padKeyData kde).length % 8 = 0 := by
  have hpad : padLen kde.length < 8 := by
    rw [padLen]
    split <;> omega
  have hsum : (kde.length + padLen kde.length) % 8 = 0 := by
    rw [padLen]
    split <;> omega
  rw [padKeyData, List.length_append]
  split
  · rename_i h0
    simpa [h0] using hsum
  rename_i h0
  rw [List.length_cons, List.length_replicate]
  have hone : padLen kde.length - 1 + 1 = padLen kde.length := by omega
  rw [hone]
  exact hsum

open AuthIe Authenticator

private theorem length_selected {α : Type} [DecidableEq α] (have_ : List α)
    (table : List (α × Octets)) : (selected have_ table).length ≤ table.length := by
  rw [selected, List.length_map]
  exact List.length_filter_le _ _

private theorem length_suiteList {α : Type} [DecidableEq α] (have_ : List α)
    (table : List (α × Octets)) (suites : Octets)
    (hfour : ∀ p ∈ table, p.2.length = 4)
    (h : suiteList (selected have_ table) = some suites) :
    suites.length ≤ 2 + 4 * table.length := by
  have hflat : ∀ l : List Octets, (∀ s ∈ l, s.length = 4) → l.flatten.length = 4 * l.length := by
    intro l hl
    induction l with
    | nil => rfl
    | cons s l ih =>
      rw [List.flatten_cons, List.length_append, List.length_cons, hl s (by simp),
        ih fun t ht => hl t (by simp [ht])]
      omega
  have hmem : ∀ s ∈ selected have_ table, s.length = 4 := by
    intro s hs
    obtain ⟨p, hp, rfl⟩ := List.mem_map.mp hs
    exact hfour p (List.mem_of_mem_filter hp)
  rw [suiteList] at h
  split at h
  · simp at h
  rw [Option.some.injEq] at h
  subst h
  have hlen := length_selected have_ table
  rw [List.length_append, length_toLE, hflat _ hmem]
  omega

private theorem length_rsnGroupSuite (c : Cipher) (s : Octets) (h : rsnGroupSuite c = some s) :
    s.length = 4 := by
  cases c <;> simp [rsnGroupSuite] at h <;> subst h <;> rfl

private theorem length_wpaGroupSuite (c : Cipher) (s : Octets) (h : wpaGroupSuite c = some s) :
    s.length = 4 := by
  cases c <;> simp [wpaGroupSuite] at h <;> subst h <;> rfl

theorem wpaWriteRsnIe_eq_elem (conf : WpaAuthConfig) (ie : Octets)
    (h : wpaWriteRsnIe conf 128 none = some ie) :
    ∃ body, ie = elem eidRsn body ∧ body.length ≤ 255 := by
  simp only [wpaWriteRsnIe, Option.bind_eq_bind, Option.bind_eq_some_iff] at h
  obtain ⟨group, hgroup, pairwise, hpairwise, akm, hakm, body, hbody, hie⟩ := h
  have hg := length_rsnGroupSuite _ _ hgroup
  have hp := length_suiteList _ _ _ (by decide) hpairwise
  have ha := length_suiteList _ _ _ (by decide) hakm
  simp only [List.length_cons, List.length_nil] at hp ha
  rw [Option.some.injEq] at hbody
  have hlen : body.length ≤ 40 := by
    rw [← hbody]
    simp only [List.length_append, length_toLE]
    omega
  split at hie
  · rw [Option.bind_some, Option.some.injEq] at hie
    exact ⟨body, hie.symm, by omega⟩
  split at hie
  · simp at hie
  rw [Option.bind_some, Option.some.injEq] at hie
  have hcmac : rsnCipherSuiteAes128Cmac.length = 4 := rfl
  refine ⟨_, hie.symm, ?_⟩
  simp [hcmac]
  omega

theorem wpaWriteWpaIe_eq_elem (conf : WpaAuthConfig) (ie : Octets)
    (h : wpaWriteWpaIe conf = some ie) :
    ∃ body, ie = elem eidVendorSpecific (wpaOuiType ++ toLE 2 1 ++ body) ∧
      (wpaOuiType ++ toLE 2 1 ++ body).length ≤ 255 := by
  simp only [wpaWriteWpaIe, Option.bind_eq_bind, Option.bind_eq_some_iff] at h
  obtain ⟨group, hgroup, pairwise, hpairwise, akm, hakm, hie⟩ := h
  have hg := length_wpaGroupSuite _ _ hgroup
  have hp := length_suiteList _ _ _ (by decide) hpairwise
  have ha := length_suiteList _ _ _ (by decide) hakm
  simp only [List.length_cons, List.length_nil] at hp ha
  rw [Option.some.injEq] at hie
  have hsel : wpaOuiType.length = 4 := rfl
  refine ⟨group ++ pairwise ++ akm, ?_, ?_⟩
  · rw [← hie]
    simp [List.append_assoc]
  · simp only [List.length_append, length_toLE, hsel]
    omega

def advertisedRsnIe (conf : WpaAuthConfig) : Option Octets :=
  if .rsn ∈ conf.protos then wpaWriteRsnIe conf 128 none else none

def advertisedWpaIe (conf : WpaAuthConfig) : Option Octets :=
  if .wpa ∈ conf.protos then wpaWriteWpaIe conf else none

theorem wpaAuthGenWpaIe_eq (conf : WpaAuthConfig) (wpaIe : Octets)
    (h : wpaAuthGenWpaIe conf = some wpaIe) :
    wpaIe = (advertisedRsnIe conf).getD [] ++ (advertisedWpaIe conf).getD [] := by
  simp only [wpaAuthGenWpaIe, Option.bind_eq_bind] at h
  rw [advertisedRsnIe, advertisedWpaIe]
  split at h
  · rename_i hmem
    obtain ⟨rsn, hrsn, h⟩ := Option.bind_eq_some_iff.mp h
    rw [if_pos hmem, hrsn, Option.getD_some]
    split at h
    · rename_i hm
      obtain ⟨wpa, hwpa, h⟩ := Option.bind_eq_some_iff.mp h
      rw [if_pos hm, hwpa, Option.getD_some]
      exact (Option.some.inj h).symm
    · rename_i hm
      rw [if_neg hm]
      exact (Option.some.inj h).symm
  · rename_i hmem
    rw [Option.bind_some] at h
    rw [if_neg hmem]
    split at h
    · rename_i hm
      obtain ⟨wpa, hwpa, h⟩ := Option.bind_eq_some_iff.mp h
      rw [if_pos hm, hwpa, Option.getD_some]
      exact (Option.some.inj h).symm
    · rename_i hm
      rw [if_neg hm]
      exact (Option.some.inj h).symm

private theorem advertisedRsnIe_elem (conf : WpaAuthConfig) (ie : Octets)
    (h : advertisedRsnIe conf = some ie) : ∃ body, ie = elem eidRsn body ∧ body.length ≤ 255 := by
  rw [advertisedRsnIe] at h
  split at h
  · exact wpaWriteRsnIe_eq_elem conf ie h
  · simp at h

private theorem advertisedWpaIe_elem (conf : WpaAuthConfig) (ie : Octets)
    (h : advertisedWpaIe conf = some ie) :
    ∃ body, ie = elem eidVendorSpecific (wpaOuiType ++ toLE 2 1 ++ body) ∧
      (wpaOuiType ++ toLE 2 1 ++ body).length ≤ 255 := by
  rw [advertisedWpaIe] at h
  split at h
  · exact wpaWriteWpaIe_eq_elem conf ie h
  · simp at h

private theorem parse_rsnIe (rsn : Option Octets) (rest : Octets) (ie : EapolIeParse)
    (hrsn : ∀ x, rsn = some x → ∃ body, x = elem eidRsn body ∧ body.length ≤ 255)
    (hie : ie.rsnIe = none) :
    parseElems supplicantElem (rsn.getD [] ++ rest).length (rsn.getD [] ++ rest) ie =
      parseElems supplicantElem rest.length rest { ie with rsnIe := rsn } := by
  cases rsn with
  | none =>
    have hsame : { ie with rsnIe := none } = ie := by rw [← hie]
    simp [hsame]
  | some x =>
    obtain ⟨body, rfl, hlen⟩ := hrsn x rfl
    rw [Option.getD_some, parseElems_other supplicantElem eidRsn body rest ie (by decide) hlen]
    rfl

private theorem parse_wpaIe (wpa : Option Octets) (rest : Octets) (ie : EapolIeParse)
    (hwpa : ∀ x, wpa = some x → ∃ body,
      x = elem eidVendorSpecific (wpaOuiType ++ toLE 2 1 ++ body) ∧
        (wpaOuiType ++ toLE 2 1 ++ body).length ≤ 255)
    (hie : ie.wpaIe = none) :
    parseElems supplicantElem (wpa.getD [] ++ rest).length (wpa.getD [] ++ rest) ie =
      parseElems supplicantElem rest.length rest { ie with wpaIe := wpa } := by
  cases wpa with
  | none =>
    have hsame : { ie with wpaIe := none } = ie := by rw [← hie]
    simp [hsame]
  | some x =>
    obtain ⟨body, rfl, hlen⟩ := hwpa x rfl
    rw [Option.getD_some, parseElems_vendor supplicantElem _ rest ie _ hlen
      (wpaParseGeneric_wpaIe body ie)]

private theorem parse_gtkKde (keyidx : ℕ) (gtk rest : Octets) (ie : EapolIeParse)
    (hpos : 0 < gtk.length) (hlen : gtk.length ≤ 249) :
    parseElems supplicantElem (gtkKde keyidx gtk ++ rest).length (gtkKde keyidx gtk ++ rest) ie =
      parseElems supplicantElem rest.length rest
        { ie with gtk := some ([UInt8.ofNat (keyidx % 4), 0] ++ gtk) } := by
  rw [gtkKde, wpaAddKde_eq_elem _ _ _ rfl, parseElems_vendor supplicantElem _ rest ie _ ?_
    (wpaParseGeneric_gtk keyidx gtk ie (List.length_pos_iff.mp hpos))]
  have hsel : rsnKeyDataGroupkey.length = 4 := rfl
  simp [hsel]
  omega

-- What the IGTK KDE carries: key index, packet number and key
def igtkFields (keyid : ℕ) (pn igtk : Octets) : Octets := [UInt8.ofNat keyid, 0] ++ pn ++ igtk

private theorem parse_igtkKde (keyid : ℕ) (pn igtk rest : Octets) (ie : EapolIeParse)
    (hpn : pn.length = 6) (higtk : igtk.length = 16) :
    parseElems supplicantElem (igtkKde keyid pn igtk ++ rest).length
      (igtkKde keyid pn igtk ++ rest) ie =
      parseElems supplicantElem rest.length rest
        { ie with igtk := some (igtkFields keyid pn igtk) } := by
  have hgen := wpaParseGeneric_igtk (igtkFields keyid pn igtk) ie (by simp [igtkFields, hpn, higtk])
  rw [igtkKde, wpaAddKde_eq_elem _ _ _ rfl, List.append_nil, ← igtkFields,
    parseElems_vendor supplicantElem _ rest ie _ ?_ hgen]
  have hsel : rsnKeyDataIgtk.length = 4 := rfl
  simp [hsel, igtkFields, hpn, higtk]

-- The IEs of message 3/4 after a WPA-only station's list has lost the RSN IE
def msg3RsnIe (conf : WpaAuthConfig) (ver : Option Proto) : Option Octets :=
  if ver = some .wpa ∧ .wpa ∈ conf.protos then none else advertisedRsnIe conf

theorem getD_one_elem (id : UInt8) (body rest : Octets) (hlen : body.length ≤ 255) :
    ((elem id body ++ rest).getD 1 0).toNat = body.length := by
  simp [elem, UInt8.toNat_ofNat']
  omega

theorem length_elem (id : UInt8) (body : Octets) : (elem id body).length = body.length + 2 := by
  simp [elem]

-- `msg3WpaIe` finds the border between the two elements.
theorem msg3WpaIe_eq (conf : WpaAuthConfig) (ver : Option Proto) (wpaIe : Octets)
    (h : wpaAuthGenWpaIe conf = some wpaIe) :
    msg3WpaIe conf ver wpaIe = (msg3RsnIe conf ver).getD [] ++ (advertisedWpaIe conf).getD [] := by
  have hie := wpaAuthGenWpaIe_eq conf wpaIe h
  rw [msg3WpaIe, msg3RsnIe]
  by_cases hver : ver = some .wpa
  · cases hrsn : advertisedRsnIe conf with
    | none =>
      have hnot : ¬ (ver = some .wpa ∧ .rsn ∈ conf.protos ∧
          (wpaIe.getD 1 0).toNat + 2 < wpaIe.length ∧ wpaIe.getD 0 0 = eidRsn) := by
        rintro ⟨-, -, -, h0⟩
        rw [hie, hrsn] at h0
        cases hwpa : advertisedWpaIe conf with
        | none =>
          rw [hwpa] at h0
          exact absurd h0 (by decide)
        | some x =>
          obtain ⟨body, rfl, -⟩ := advertisedWpaIe_elem conf x hwpa
          rw [hwpa] at h0
          simp [elem, eidVendorSpecific, eidRsn] at h0
      rw [if_neg hnot, hie, hrsn, ite_self]
    | some r =>
      obtain ⟨body, rfl, hlen⟩ := advertisedRsnIe_elem conf r hrsn
      have hmem : .rsn ∈ conf.protos := by
        by_contra hno
        simp [advertisedRsnIe, hno] at hrsn
      have hfirst : (wpaIe.getD 1 0).toNat + 2 = (elem eidRsn body).length := by
        rw [hie, hrsn, Option.getD_some, getD_one_elem _ _ _ hlen, length_elem]
      cases hwpa : advertisedWpaIe conf with
      | none =>
        -- the list holds nothing behind the RSN IE, so that it is left as it is
        have hno : .wpa ∉ conf.protos := by
          intro hm
          have hw : wpaWriteWpaIe conf = none := by rwa [advertisedWpaIe, if_pos hm] at hwpa
          simp [wpaAuthGenWpaIe, hm, hw] at h
        have hshort : ¬ (wpaIe.getD 1 0).toNat + 2 < wpaIe.length := by
          rw [hfirst, hie, hrsn, hwpa]
          simp
        rw [if_neg fun hc => hshort hc.2.2.1, if_neg (by simp [hno]), hie, hrsn, hwpa]
      | some w =>
        obtain ⟨wbody, rfl, hwlen⟩ := advertisedWpaIe_elem conf w hwpa
        have hm : .wpa ∈ conf.protos := by
          by_contra hno
          simp [advertisedWpaIe, hno] at hwpa
        have hlong : (wpaIe.getD 1 0).toNat + 2 < wpaIe.length := by
          rw [hfirst, hie, hrsn, hwpa]
          simp [elem]
        have hid : wpaIe.getD 0 0 = eidRsn := by
          rw [hie, hrsn]
          rfl
        have hdrop : wpaIe.drop ((wpaIe.getD 1 0).toNat + 2) =
            elem eidVendorSpecific (wpaOuiType ++ toLE 2 1 ++ wbody) := by
          rw [hfirst, hie, hrsn, hwpa, Option.getD_some, Option.getD_some, List.drop_left]
        have hone := getD_one_elem eidVendorSpecific _ [] hwlen
        rw [List.append_nil] at hone
        rw [if_pos ⟨hver, hmem, hlong, hid⟩, if_pos ⟨hver, hm⟩]
        simp only [hdrop, hone, Option.getD_some, Option.getD_none, List.nil_append]
        exact List.take_of_length_le (by rw [length_elem])
  · rw [if_neg (by simp [hver]), if_neg (by simp [hver]), hie]

def messageKeyData (ies : Octets) (keyidx : ℕ) (gtk : Octets)
    (igtk : Option (ℕ × Octets × Octets)) : Octets :=
  ies ++ gtkKde keyidx gtk ++
    (match igtk with
      | none => []
      | some (keyid, pn, key) => igtkKde keyid pn key)

-- What the Supplicant must find in them
def messageFields (rsnIe wpaIe : Option Octets) (keyidx : ℕ) (gtk : Octets)
    (igtk : Option (ℕ × Octets × Octets)) : EapolIeParse :=
  { rsnIe := rsnIe
    wpaIe := wpaIe
    gtk := some ([UInt8.ofNat (keyidx % 4), 0] ++ gtk)
    igtk := igtk.map fun p => igtkFields p.1 p.2.1 p.2.2 }

theorem parse_messageKeyData (rsnIe wpaIe : Option Octets) (keyidx : ℕ) (gtk : Octets)
    (igtk : Option (ℕ × Octets × Octets))
    (hrsn : ∀ x, rsnIe = some x → ∃ body, x = elem eidRsn body ∧ body.length ≤ 255)
    (hwpa : ∀ x, wpaIe = some x → ∃ body,
      x = elem eidVendorSpecific (wpaOuiType ++ toLE 2 1 ++ body) ∧
        (wpaOuiType ++ toLE 2 1 ++ body).length ≤ 255)
    (hpos : 0 < gtk.length) (hlen : gtk.length ≤ 249)
    (higtk : ∀ p, igtk = some p → p.2.1.length = 6 ∧ p.2.2.length = 16) :
    wpaSupplicantParseIes
      (padKeyData (messageKeyData (rsnIe.getD [] ++ wpaIe.getD []) keyidx gtk igtk)) =
        (true, messageFields rsnIe wpaIe keyidx gtk igtk) := by
  rw [wpaSupplicantParseIes, padKeyData]
  generalize padLen _ = n
  have hpad := parseElems_padding supplicantElem n
  simp only [] at hpad
  generalize (if n = 0 then [] else (0xdd :: List.replicate (n - 1) 0 : Octets)) = pad at *
  simp only [messageKeyData, List.append_assoc]
  rw [parse_rsnIe rsnIe _ _ hrsn rfl, parse_wpaIe wpaIe _ _ hwpa rfl,
    parse_gtkKde keyidx gtk _ _ hpos hlen]
  cases igtk with
  | none => exact hpad _
  | some p =>
    obtain ⟨keyid, pn, key⟩ := p
    obtain ⟨hpn, hkey⟩ := higtk _ rfl
    rw [parse_igtkKde keyid pn key _ _ hpn hkey]
    exact hpad _

-- The two messages the Authenticator sends with a GTK KDE. `ver` is the version the station
-- uses.
inductive KeyMessage where
  | pairwise3 (ver : Option Proto)
  | group1

namespace KeyMessage

def ies (conf : WpaAuthConfig) (wpaIe : Octets) : KeyMessage → Octets
  | pairwise3 ver => msg3WpaIe conf ver wpaIe
  | group1 => []

def rsnIe (conf : WpaAuthConfig) : KeyMessage → Option Octets
  | pairwise3 ver => msg3RsnIe conf ver
  | group1 => none

def wpaIe (conf : WpaAuthConfig) : KeyMessage → Option Octets
  | pairwise3 _ => advertisedWpaIe conf
  | group1 => none

theorem ies_eq (conf : WpaAuthConfig) (list : Octets) (h : wpaAuthGenWpaIe conf = some list)
    (m : KeyMessage) : m.ies conf list = (m.rsnIe conf).getD [] ++ (m.wpaIe conf).getD [] := by
  cases m with
  | pairwise3 ver => exact msg3WpaIe_eq conf ver list h
  | group1 => rfl

theorem rsnIe_elem (conf : WpaAuthConfig) (m : KeyMessage) (x : Octets)
    (h : m.rsnIe conf = some x) : ∃ body, x = elem eidRsn body ∧ body.length ≤ 255 := by
  cases m with
  | pairwise3 ver =>
    rw [rsnIe, msg3RsnIe] at h
    split at h
    · simp at h
    · exact advertisedRsnIe_elem conf x h
  | group1 => simp [rsnIe] at h

theorem wpaIe_elem (conf : WpaAuthConfig) (m : KeyMessage) (x : Octets)
    (h : m.wpaIe conf = some x) :
    ∃ body, x = elem eidVendorSpecific (wpaOuiType ++ toLE 2 1 ++ body) ∧
      (wpaOuiType ++ toLE 2 1 ++ body).length ≤ 255 := by
  cases m with
  | pairwise3 ver => exact advertisedWpaIe_elem conf x h
  | group1 => simp [wpaIe] at h

end KeyMessage

-- The Supplicant unwraps and parses exactly what the Authenticator has put into the key data
-- of a frame, whatever the length of the padding is.
theorem parse_unwrap_sendKeyData (cr : Crypto)
    (hunwrap : ∀ kek plain wrapped, cr.aesWrap kek plain = some wrapped →
      cr.aesUnwrap kek wrapped = some plain)
    (conf : WpaAuthConfig) (list : Octets) (hlist : wpaAuthGenWpaIe conf = some list)
    (m : KeyMessage) (keyidx : ℕ) (gtk : Octets) (hpos : 0 < gtk.length) (hlen : gtk.length ≤ 249)
    (igtk : Option (ℕ × Octets × Octets))
    (higtk : ∀ p, igtk = some p → p.2.1.length = 6 ∧ p.2.2.length = 16)
    (ver : KeyInfo) (hver : usesAesWrap ver = true) (kek iv : BitVec 128) (wrapped : Octets)
    (hsend : sendKeyData cr ver kek iv true
      (some (messageKeyData (m.ies conf list) keyidx gtk igtk)) = some wrapped) :
    ∃ plain, cr.aesUnwrap kek wrapped = some plain ∧ plain.length % 8 = 0 ∧
      wpaSupplicantParseIes plain =
        (true, messageFields (m.rsnIe conf) (m.wpaIe conf) keyidx gtk igtk) := by
  have hwrap : cr.aesWrap kek (padKeyData (messageKeyData (m.ies conf list) keyidx gtk igtk)) =
      some wrapped := by
    simpa [sendKeyData, hver] using hsend
  refine ⟨_, hunwrap _ _ _ hwrap, padKeyData_length _, ?_⟩
  rw [m.ies_eq conf list hlist]
  exact parse_messageKeyData _ _ keyidx gtk igtk (m.rsnIe_elem conf) (m.wpaIe_elem conf) hpos hlen
    higtk

private def mixedConf : WpaAuthConfig where
  protos := [.rsn, .wpa]
  wpaKeyMgmt := [.psk]
  wpaPairwise := [.tkip]
  wpaGroup := .tkip
  rsnPairwise := [.ccmp]
  ieee80211w := .optional

theorem parse_unwrap_sendKeyData_mixed :
    ∃ plain, Crypto.transparent.aesUnwrap 5 (List.replicate 8 0xa6 ++ padKeyData (messageKeyData
        ((KeyMessage.pairwise3 (some .rsn)).ies mixedConf ((wpaAuthGenWpaIe mixedConf).getD []))
        2 (List.replicate 32 7) (some (4, List.replicate 6 1, List.replicate 16 9)))) = some plain ∧
      plain.length % 8 = 0 ∧
      wpaSupplicantParseIes plain = (true, messageFields (msg3RsnIe mixedConf (some .rsn))
        (advertisedWpaIe mixedConf) 2 (List.replicate 32 7)
        (some (4, List.replicate 6 1, List.replicate 16 9))) :=
  parse_unwrap_sendKeyData Crypto.transparent
    (by
      intro kek plain wrapped h
      simp only [Crypto.transparent, Option.some.injEq] at h ⊢
      subst h
      simp)
    mixedConf ((wpaAuthGenWpaIe mixedConf).getD []) (by decide) (.pairwise3 (some .rsn)) 2 (List.replicate 32 7) (by decide) (by decide)
    (some (4, List.replicate 6 1, List.replicate 16 9))
    (by
      intro p hp
      rw [Option.some.injEq] at hp
      subst hp
      simp)
    KeyInfo.typeHmacSha1Aes (by decide) 5 0 _ (by rfl)

end WpaSupplicant.KeyData

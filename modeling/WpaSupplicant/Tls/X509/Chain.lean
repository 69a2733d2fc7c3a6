import WpaSupplicant.Tls.X509

namespace WpaSupplicant.Tls

-- A string up to the case of its letters and to superfluous blanks
def foldString (s : CString) : Octets := (x509StrStripWhitespace s.1).map toLower

def SameName (a b : Name) : Prop :=
  a.attr.map (fun x => (x.type, foldString x.value)) = b.attr.map (fun x => (x.type, foldString x.value)) ∧
    a.email.map foldString = b.email.map foldString

theorem stripLoop_subset (remove : Bool) (s : Octets) : stripLoop remove s ⊆ s := by
  induction s generalizing remove with
  | nil => simp [stripLoop]
  | cons c s ih =>
    rw [stripLoop]
    split
    · exact List.Subset.trans (ih remove) (List.subset_cons_self c s)
    · exact List.cons_subset_cons c (ih _)

theorem strip_noNul (s : CString) : (0 : UInt8) ∉ x509StrStripWhitespace s.1 := by
  intro h
  apply s.2
  apply stripLoop_subset true
  unfold x509StrStripWhitespace at h
  dsimp only at h
  split at h
  · split at h
    · exact List.dropLast_subset _ h
    · exact h
  · exact h

theorem x509StrCompare_eq_zero (a b : Option CString) :
    x509StrCompare a b = 0 ↔ a.map foldString = b.map foldString := by
  cases a with
  | none => cases b <;> simp [x509StrCompare]
  | some a =>
    cases b with
    | none => simp [x509StrCompare]
    | some b =>
      simp only [x509StrCompare, Option.map_some, Option.some.injEq]
      exact osStrcasecmp_eq_zero (strip_noNul a) (strip_noNul b)

theorem attrCompare_eq_zero {as bs : List NameAttr} (hlen : as.length = bs.length) :
    attrCompare as bs = 0 ↔
      as.map (fun x => (x.type, foldString x.value)) = bs.map (fun x => (x.type, foldString x.value)) := by
  induction as generalizing bs with
  | nil =>
    obtain rfl := List.length_eq_zero_iff.mp hlen.symm
    simp [attrCompare]
  | cons a as ih =>
    obtain _ | ⟨b, bs⟩ := bs
    · simp at hlen
    simp only [List.length_cons, Nat.add_right_cancel_iff] at hlen
    have hvalue := x509StrCompare_eq_zero (some a.value) (some b.value)
    simp only [Option.map_some, Option.some.injEq] at hvalue
    simp only [attrCompare, List.map_cons, List.cons.injEq, Prod.mk.injEq]
    by_cases htype : a.type = b.type
    · rw [if_neg (by simp [htype])]
      by_cases hres : x509StrCompare (some a.value) (some b.value) = 0
      · rw [if_neg (by simp [hres]), ih hlen]
        simp [htype, hvalue.mp hres]
      · rw [if_pos hres]
        simp [hres, mt hvalue.mpr hres]
    · rw [if_pos htype]
      simp [htype]

theorem x509NameCompare_eq_zero (a b : Name) : x509NameCompare a b = 0 ↔ SameName a b := by
  unfold x509NameCompare SameName
  by_cases hlen : a.attr.length = b.attr.length
  · rw [if_neg (by omega), if_neg (by omega)]
    have hattr := attrCompare_eq_zero hlen
    by_cases hres : attrCompare a.attr b.attr = 0
    · simp only [hres, ne_eq, not_true_eq_false, if_false, x509StrCompare_eq_zero]
      simp [hattr.mp hres]
    · simp [hres, mt hattr.mpr hres]
  · have hne : a.attr.map (fun x => (x.type, foldString x.value)) ≠ b.attr.map (fun x => (x.type, foldString x.value)) := by
      intro h
      exact hlen (by simpa using congrArg List.length h)
    by_cases hlt : a.attr.length < b.attr.length
    · simp [hlt, hne]
    · simp [hlt, hne, show b.attr.length < a.attr.length by omega]

section Chain

variable (checkSignature : Cert → Cert → Bool) (now : ℕ) (disableTimeChecks : Bool) (trusted chain : List Cert)

structure IssuedBy (cert issuer : Cert) : Prop where
  name : SameName cert.issuer issuer.subject
  signature : checkSignature issuer cert = true

def InTime (cert : Cert) : Prop := disableTimeChecks = true ∨ (cert.notBefore ≤ now ∧ now ≤ cert.notAfter)

def PathLenOk (issuer : Cert) (below : ℕ) : Prop :=
  issuer.extPathLenConstraint = true → below ≤ issuer.pathLenConstraint

structure Link (idx : ℕ) (cert next : Cert) : Prop where
  issued : IssuedBy checkSignature cert next
  valid : x509ValidIssuer next = true
  pathLen : PathLenOk next idx

-- The chain is valid up to a position, where a trusted certificate is the issuer; its path length constraint apart.
structure Completes (k : ℕ) (trust : Cert) : Prop where
  links : ∀ i < k, ∀ cert next, chain[i]? = some cert → chain[i + 1]? = some next → Link checkSignature i cert next
  times : ∀ i ≤ k, ∀ cert, chain[i]? = some cert → InTime now disableTimeChecks cert
  anchor : ∃ cert, chain[k]? = some cert ∧ trust ∈ trusted ∧ IssuedBy checkSignature cert trust ∧
    x509ValidIssuer trust = true

def FirstAnchor (k : ℕ) (trust : Cert) : Prop :=
  (∃ cert, chain[k]? = some cert ∧ findTrust trusted cert = some trust) ∧
    ∀ i < k, ∀ cert, chain[i]? = some cert → findTrust trusted cert = none

variable {checkSignature now disableTimeChecks trusted}

theorem nextCheck_ok {idx : ℕ} {cert : Cert} {next : Option Cert} :
    nextCheck checkSignature idx cert next = .ok () ↔ ∀ n, next = some n → Link checkSignature idx cert n := by
  cases next with
  | none => simp [nextCheck]
  | some next =>
    simp only [Option.some.injEq, forall_eq']
    unfold nextCheck
    dsimp only
    constructor
    · intro h
      split at h
      · simp at h
      rename_i hname
      split at h
      · simp at h
      rename_i hvalid
      split at h
      · simp at h
      rename_i hlen
      split at h
      · simp at h
      rename_i hsig
      refine ⟨⟨(x509NameCompare_eq_zero _ _).mp (by simpa using hname), by simpa using hsig⟩, by simpa using hvalid, ?_⟩
      intro hext
      simpa [hext] using hlen
    · intro h
      have hname := (x509NameCompare_eq_zero _ _).mpr h.issued.name
      simp [hname, h.valid, h.issued.signature]
      exact h.pathLen

theorem inTime_iff {cert : Cert} : InTime now disableTimeChecks cert ↔
    ¬(!disableTimeChecks && (now < cert.notBefore || cert.notAfter < now)) = true := by
  cases disableTimeChecks <;> simp [InTime]

-- What the loop accepts from a position on
structure Accepts (checkSignature : Cert → Cert → Bool) (now : ℕ) (disableTimeChecks : Bool) (trusted : List Cert)
    (idx : ℕ) (l : List Cert) (k : ℕ) (trust : Cert) : Prop where
  links : ∀ i ≤ k, ∀ cert next, l[i]? = some cert → l[i + 1]? = some next → Link checkSignature (idx + i) cert next
  times : ∀ i ≤ k, ∀ cert, l[i]? = some cert → InTime now disableTimeChecks cert
  first : FirstAnchor trusted l k trust
  valid : x509ValidIssuer trust = true
  signature : ∀ cert, l[k]? = some cert → checkSignature trust cert = true

section

variable {idx k : ℕ} {cert trust : Cert} {rest l : List Cert}

theorem accepts_zero : Accepts checkSignature now disableTimeChecks trusted idx (cert :: rest) 0 trust ↔
    InTime now disableTimeChecks cert ∧ (∀ next, rest.head? = some next → Link checkSignature idx cert next) ∧
      findTrust trusted cert = some trust ∧ x509ValidIssuer trust = true ∧ checkSignature trust cert = true := by
  constructor
  · intro h
    obtain ⟨⟨c, hc, hfind⟩, -⟩ := h.first
    obtain rfl : cert = c := by simpa using hc
    refine ⟨h.times 0 le_rfl cert rfl, fun next hnext => ?_, hfind, h.valid, h.signature cert rfl⟩
    exact h.links 0 le_rfl cert next rfl (by simpa [List.head?_eq_getElem?] using hnext)
  · rintro ⟨htime, hlink, hfind, hvalid, hsig⟩
    refine ⟨?_, ?_, ⟨⟨cert, rfl, hfind⟩, by omega⟩, hvalid, ?_⟩
    · intro i hi c n hc hn
      obtain rfl : i = 0 := by omega
      obtain rfl : cert = c := by simpa using hc
      exact hlink n (by simpa [List.head?_eq_getElem?] using hn)
    · intro i hi c hc
      obtain rfl : i = 0 := by omega
      obtain rfl : cert = c := by simpa using hc
      exact htime
    · intro c hc
      obtain rfl : cert = c := by simpa using hc
      exact hsig

theorem accepts_succ : Accepts checkSignature now disableTimeChecks trusted idx (cert :: rest) (k + 1) trust ↔
    InTime now disableTimeChecks cert ∧ (∀ next, rest.head? = some next → Link checkSignature idx cert next) ∧
      findTrust trusted cert = none ∧
      Accepts checkSignature now disableTimeChecks trusted (idx + 1) rest k trust := by
  constructor
  · intro h
    obtain ⟨⟨c, hc, hfind⟩, hfirst⟩ := h.first
    refine ⟨h.times 0 (by omega) cert rfl, fun next hnext => ?_, hfirst 0 (by omega) cert rfl,
      ⟨?_, ?_, ⟨⟨c, by simpa using hc, hfind⟩, ?_⟩, h.valid, ?_⟩⟩
    · exact h.links 0 (by omega) cert next rfl (by simpa [List.head?_eq_getElem?] using hnext)
    · intro i hi c n hc hn
      have := h.links (i + 1) (by omega) c n (by simpa using hc) (by simpa using hn)
      rwa [show idx + (i + 1) = idx + 1 + i by omega] at this
    · exact fun i hi c hc => h.times (i + 1) (by omega) c (by simpa using hc)
    · exact fun i hi c hc => hfirst (i + 1) (by omega) c (by simpa using hc)
    · exact fun c hc => h.signature c (by simpa using hc)
  · rintro ⟨htime, hlink, hnone, h⟩
    obtain ⟨⟨c, hc, hfind⟩, hfirst⟩ := h.first
    refine ⟨?_, ?_, ⟨⟨c, by simpa using hc, hfind⟩, ?_⟩, h.valid, fun c hc => h.signature c (by simpa using hc)⟩
    · intro i hi c n hc hn
      cases i with
      | zero =>
        obtain rfl : cert = c := by simpa using hc
        exact hlink n (by simpa [List.head?_eq_getElem?] using hn)
      | succ i =>
        have := h.links i (by omega) c n (by simpa using hc) (by simpa using hn)
        rwa [show idx + 1 + i = idx + (i + 1) by omega] at this
    · intro i hi c hc
      cases i with
      | zero =>
        obtain rfl : cert = c := by simpa using hc
        exact htime
      | succ i => exact h.times i (by omega) c (by simpa using hc)
    · intro i hi c hc
      cases i with
      | zero =>
        obtain rfl : cert = c := by simpa using hc
        exact hnone
      | succ i => exact hfirst i (by omega) c (by simpa using hc)

theorem chainLoop_trusted : chainLoop checkSignature now disableTimeChecks trusted idx true l = .ok true := by
  induction l generalizing idx with
  | nil => rfl
  | cons cert rest ih => exact ih

theorem chainLoop_ok : chainLoop checkSignature now disableTimeChecks trusted idx false l = .ok true ↔
    ∃ k trust, Accepts checkSignature now disableTimeChecks trusted idx l k trust := by
  induction l generalizing idx with
  | nil =>
    simp only [chainLoop, Except.ok.injEq, Bool.false_eq_true, false_iff]
    rintro ⟨k, trust, h⟩
    obtain ⟨⟨cert, hc, -⟩, -⟩ := h.first
    simp at hc
  | cons cert rest ih =>
    rw [chainLoop]
    constructor
    · intro h
      split at h
      · simp at h
      rename_i htime
      have htime := inTime_iff.2 htime
      split at h
      · simp at h
      rename_i hlink
      have hlink := nextCheck_ok.1 hlink
      split at h
      · rename_i hnone
        obtain ⟨k, trust, hacc⟩ := ih.mp h
        exact ⟨k + 1, trust, accepts_succ.2 ⟨htime, hlink, hnone, hacc⟩⟩
      rename_i trust hfind
      split at h
      · simp at h
      rename_i hvalid
      split at h
      · simp at h
      rename_i hsig
      exact ⟨0, trust, accepts_zero.2 ⟨htime, hlink, hfind, by simpa using hvalid, by simpa using hsig⟩⟩
    · rintro ⟨k, trust, hacc⟩
      cases k with
      | zero =>
        obtain ⟨htime, hlink, hfind, hvalid, hsig⟩ := accepts_zero.1 hacc
        rw [if_neg (inTime_iff.1 htime), nextCheck_ok.2 hlink, hfind]
        simp [hvalid, hsig, chainLoop_trusted]
      | succ k =>
        obtain ⟨htime, hlink, hnone, hacc⟩ := accepts_succ.1 hacc
        rw [if_neg (inTime_iff.1 htime), nextCheck_ok.2 hlink, hnone]
        exact ih.mpr ⟨k, trust, hacc⟩

end

theorem chainValidate_ok (htrusted : trusted ≠ []) :
    x509CertificateChainValidate checkSignature now disableTimeChecks trusted chain = .ok () ↔
      ∃ k trust, Accepts checkSignature now disableTimeChecks trusted 0 chain k trust := by
  rw [← chainLoop_ok]
  unfold x509CertificateChainValidate
  cases h : chainLoop checkSignature now disableTimeChecks trusted 0 false chain with
  | error reason => simp
  | ok chainTrusted => cases chainTrusted <;> simp [htrusted]

theorem accepts_iff {k : ℕ} {trust : Cert} : Accepts checkSignature now disableTimeChecks trusted 0 chain k trust ↔
    FirstAnchor trusted chain k trust ∧ Completes checkSignature now disableTimeChecks trusted chain k trust ∧
      ∀ cert next, chain[k]? = some cert → chain[k + 1]? = some next → Link checkSignature k cert next := by
  constructor
  · intro h
    obtain ⟨⟨cert, hc, hfind⟩, -⟩ := h.first
    have hname : x509NameCompare cert.issuer trust.subject = 0 := by simpa using List.find?_some hfind
    refine ⟨h.first, ⟨fun i hi c n hc hn => ?_, h.times, cert, hc, List.mem_of_find?_eq_some hfind,
      ⟨(x509NameCompare_eq_zero _ _).mp hname, h.signature cert hc⟩, h.valid⟩, fun c n hc hn => ?_⟩
    · simpa using h.links i (by omega) c n hc hn
    · simpa using h.links k le_rfl c n hc hn
  · rintro ⟨hfirst, hcompletes, hlast⟩
    obtain ⟨cert, hc, -, hissued, hvalid⟩ := hcompletes.anchor
    refine ⟨fun i hi c n hcur hn => ?_, hcompletes.times, hfirst, hvalid, fun c hc' => ?_⟩
    · rw [Nat.zero_add]
      rcases Nat.lt_or_eq_of_le hi with hlt | rfl
      · exact hcompletes.links i hlt c n hcur hn
      · exact hlast c n hcur hn
    · obtain rfl : cert = c := Option.some.inj (hc.symm.trans hc')
      exact hissued.signature

-- An accepted chain is valid exactly where the trusted certificate that completes it keeps its own path length
-- constraint, or another one completes it.
theorem chain_accepted_sound (checkSignature : Cert → Cert → Bool) (now : ℕ) (disableTimeChecks : Bool)
    (trusted chain : List Cert) (htrusted : trusted ≠ []) :
    (x509CertificateChainValidate checkSignature now disableTimeChecks trusted chain = .ok () →
      ∃ k trust, Completes checkSignature now disableTimeChecks trusted chain k trust ∧ PathLenOk trust k) ↔
    ∀ k trust, FirstAnchor trusted chain k trust →
      Completes checkSignature now disableTimeChecks trusted chain k trust →
      (∀ cert next, chain[k]? = some cert → chain[k + 1]? = some next → Link checkSignature k cert next) →
        PathLenOk trust k ∨ ∃ k' trust', (k', trust') ≠ (k, trust) ∧
          Completes checkSignature now disableTimeChecks trusted chain k' trust' ∧ PathLenOk trust' k' := by
  rw [chainValidate_ok chain htrusted]
  constructor
  · intro hsound k trust hfirst hcompletes hlast
    obtain ⟨k', trust', hcompletes', hlen⟩ := hsound ⟨k, trust, (accepts_iff chain).mpr ⟨hfirst, hcompletes, hlast⟩⟩
    by_cases hsame : (k', trust') = (k, trust)
    · simp only [Prod.mk.injEq] at hsame
      obtain ⟨rfl, rfl⟩ := hsame
      exact Or.inl hlen
    · exact Or.inr ⟨k', trust', hsame, hcompletes', hlen⟩
  · rintro hwhen ⟨k, trust, hacc⟩
    obtain ⟨hfirst, hcompletes, hlast⟩ := (accepts_iff chain).mp hacc
    rcases hwhen k trust hfirst hcompletes hlast with hlen | ⟨k', trust', -, hcompletes', hlen⟩
    · exact ⟨k, trust, hcompletes, hlen⟩
    · exact ⟨k', trust', hcompletes', hlen⟩

-- A trusted certificate that allows no other authority below it, an authority below it, and a server
def rootCert : Cert where
  issuer := { attr := [⟨.cn, ⟨[82], by decide⟩⟩] }
  subject := { attr := [⟨.cn, ⟨[82], by decide⟩⟩] }
  notAfter := 100
  extBasicConstraints := true
  extPathLenConstraint := true
  ca := true

def authorityCert : Cert where
  issuer := rootCert.subject
  subject := { attr := [⟨.cn, ⟨[65], by decide⟩⟩] }
  notAfter := 100
  extBasicConstraints := true
  ca := true

def serverCert : Cert where
  issuer := authorityCert.subject
  subject := { attr := [⟨.cn, ⟨[83], by decide⟩⟩] }
  notAfter := 100

-- One that allows one authority, over the same chain
def rootForOne : Cert := { rootCert with pathLenConstraint := 1 }

theorem rootForOne_server_sound :
    ∃ k trust, Completes (fun _ _ => true) 50 false [rootForOne] [serverCert, authorityCert] k trust ∧
      PathLenOk trust k := by
  refine (chain_accepted_sound (fun _ _ => true) 50 false [rootForOne] [serverCert, authorityCert]
    (by simp)).mpr ?_ (by decide)
  rintro k trust - hcompletes -
  obtain ⟨cert, hc, htrust, -⟩ := hcompletes.anchor
  obtain rfl : trust = rootForOne := by simpa using htrust
  have hk : k < 2 := (List.getElem?_eq_some_iff.mp hc).1
  exact Or.inl fun _ => Nat.le_of_lt_succ hk

-- The server's chain is accepted although the trusted certificate allows no authority below it.
theorem pathLen_of_trusted_ignored :
    x509CertificateChainValidate (fun _ _ => true) 50 false [rootCert] [serverCert, authorityCert] = .ok () ∧
      ¬∃ k trust, Completes (fun _ _ => true) 50 false [rootCert] [serverCert, authorityCert] k trust ∧
        PathLenOk trust k := by
  refine ⟨by decide, ?_⟩
  rintro ⟨k, trust, hcompletes, hlen⟩
  obtain ⟨cert, hc, htrust, hissued, -⟩ := hcompletes.anchor
  obtain rfl : trust = rootCert := by simpa using htrust
  have hname := (x509NameCompare_eq_zero _ _).mpr hissued.name
  match k with
  | 0 =>
    obtain rfl : serverCert = cert := by simpa using hc
    revert hname
    decide
  | 1 =>
    have := hlen rfl
    revert this
    decide
  | k + 2 => simp at hc

end Chain

end WpaSupplicant.Tls

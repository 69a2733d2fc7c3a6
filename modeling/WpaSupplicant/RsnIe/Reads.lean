import WpaSupplicant.RsnIe.Grammar

namespace WpaSupplicant.RsnIe.Raw

open Lib.Octets Lib.Buffer Lib.Checked KeyData

-- `struct wpa_ie_data`; `pmkid` is a position in the string.
structure IeData where
  pairwiseCipher : List Cipher := [.ccmp]
  groupCipher : Option Cipher := some .ccmp
  keyMgmt : List KeyMgmt := [.ieee8021x]
  capabilities : ℕ := 0
  pmkid : Option ℕ := none
  numPmkid : ℕ := 0
  mgmtGroupCipher : Option Cipher := some .aes128Cmac
  deriving DecidableEq, Repr

-- `data`, `pos` and `left` between two fields
structure Cursor where
  data : IeData
  pos : ℕ
  left : ℤ
  deriving DecidableEq, Repr

-- The next field is read unless there was an error; a read outside the string is `none`.
def andThen {α β : Type} (r : Option (Except ℤ α)) (f : α → Option (Except ℤ β)) : Option (Except ℤ β) :=
  r.bind fun r =>
    match r with
    | .error e => some (.error e)
    | .ok a => f a

-- The loop over `count` suites
def orSuites {α : Type} (bit : Octets → Option α) (ie : Octets) : ℕ → List α → ℕ → ℤ → Option (List α × ℕ × ℤ)
  | 0, bits, pos, left => some (bits, pos, left)
  | count + 1, bits, pos, left =>
    (load ie pos 4).bind fun s => orSuites bit ie count (bits ++ (bit s).toList) (pos + 4) (left - 4)

def suites {α : Type} (bit : Octets → Option α) (botch short : ℤ) (ie : Octets) (pos : ℕ) (left : ℤ) :
    Option (Except ℤ (Option (List α) × ℕ × ℤ)) :=
  if 2 ≤ left then
    (loadLE16 ie pos).bind fun count =>
      if count = 0 ∨ left - 2 < count * 4 then some (.error botch)
      else (orSuites bit ie count [] (pos + 2) (left - 2)).map fun r => .ok (some r.1, r.2)
  else if left = 1 then some (.error short)
  else some (.ok (none, pos, left))

def group (ie : Octets) (c : Cursor) : Option (Except ℤ Cursor) :=
  if 4 ≤ c.left then
    (load ie c.pos 4).map fun s =>
      if rsnSelectorToBitfield s = some .aes128Cmac then .error (-1)
      else
        .ok
          { data := { c.data with groupCipher := rsnSelectorToBitfield s }
            pos := c.pos + 4
            left := c.left - 4 }
  else if 0 < c.left then some (.error (-3))
  else some (.ok c)

def pairwise (ie : Octets) (c : Cursor) : Option (Except ℤ Cursor) :=
  andThen (suites rsnSelectorToBitfield (-4) (-5) ie c.pos c.left) fun r =>
    match r with
    | (none, pos, left) => some (.ok { c with pos, left })
    | (some ciphers, pos, left) =>
      if .aes128Cmac ∈ ciphers then some (.error (-1))
      else some (.ok { data := { c.data with pairwiseCipher := ciphers }, pos, left })

def akm (ie : Octets) (c : Cursor) : Option (Except ℤ Cursor) :=
  andThen (suites rsnKeyMgmtToBitfield (-6) (-7) ie c.pos c.left) fun r =>
    match r with
    | (none, pos, left) => some (.ok { c with pos, left })
    | (some akms, pos, left) => some (.ok { data := { c.data with keyMgmt := akms }, pos, left })

def capab (ie : Octets) (c : Cursor) : Option (Except ℤ Cursor) :=
  if 2 ≤ c.left then
    (loadLE16 ie c.pos).map fun v =>
      .ok { data := { c.data with capabilities := v }, pos := c.pos + 2, left := c.left - 2 }
  else some (.ok c)

def pmkids (ie : Octets) (c : Cursor) : Option (Except ℤ Cursor) :=
  if 2 ≤ c.left then
    (loadLE16 ie c.pos).map fun (n : ℕ) =>
      if c.left - 2 < n * 16 then .error (-9)
      else
        .ok
          { data := { c.data with pmkid := some (c.pos + 2), numPmkid := n }
            pos := c.pos + 2 + n * 16
            left := c.left - 2 - n * 16 }
  else some (.ok c)

def mgmt (ie : Octets) (c : Cursor) : Option (Except ℤ Cursor) :=
  if 4 ≤ c.left then
    (load ie c.pos 4).map fun s =>
      if rsnSelectorToBitfield s ≠ some .aes128Cmac then .error (-10)
      else
        .ok
          { data := { c.data with mgmtGroupCipher := rsnSelectorToBitfield s }
            pos := c.pos + 4
            left := c.left - 4 }
  else some (.ok c)

def header (ie : Octets) : Option (Except ℤ Cursor) :=
  if ie.length = 0 then some (.error (-1))
  else if ie.length < 4 then some (.error (-1))
  else
    ie[0]?.bind fun id =>
    if id ≠ eidRsn then some (.error (-2))
    else
      ie[1]?.bind fun len =>
      if len.toNat ≠ ie.length - 2 then some (.error (-2))
      else
        (loadLE16 ie 2).map fun version =>
          if version ≠ 1 then .error (-2) else .ok { data := {}, pos := 4, left := ie.length - 4 }

-- `wpa_parse_wpa_ie_rsn` with its pointer into the string
def wpaParseWpaIeRsn (ie : Octets) : Option (Except ℤ IeData) :=
  andThen (header ie) fun c =>
  andThen (group ie c) fun c =>
  andThen (pairwise ie c) fun c =>
  andThen (akm ie c) fun c =>
  andThen (capab ie c) fun c =>
  andThen (pmkids ie c) fun c =>
  andThen (mgmt ie c) fun c => some (.ok c.data)

section Refinement

variable {ie : Octets}

def IeData.pmkidsIn (data : IeData) (ie : Octets) : Option Octets → Prop
  | none => data.pmkid = none ∧ data.numPmkid = 0
  | some o => ∃ p, data.pmkid = some p ∧ p + 16 * data.numPmkid ≤ ie.length ∧ field ie p (16 * data.numPmkid) = o

structure Sees (ie : Octets) (data : IeData) (d : WpaIeData) : Prop where
  pairwise : data.pairwiseCipher = d.pairwiseCipher
  group : data.groupCipher = d.groupCipher
  keyMgmt : data.keyMgmt = d.keyMgmt
  capabilities : data.capabilities = d.capabilities
  pmkids : data.pmkidsIn ie d.pmkids
  mgmt : data.mgmtGroupCipher = d.mgmtGroupCipher

-- `pos` and `left` are a place in the string.
structure Place (ie : Octets) (pos : ℕ) (left : ℤ) (l : Octets) : Prop where
  inside : pos ≤ ie.length
  left : left = l.length
  rest : ie.drop pos = l

structure At (ie : Octets) (c : Cursor) (d : WpaIeData) (l : Octets) : Prop where
  place : Place ie c.pos c.left l
  data : Sees ie c.data d

-- Nothing outside the string is read, and the two parsers have the same error or related results.
def Sim {α β : Type} (R : α → β → Prop) (raw : Option (Except ℤ α)) (pure : Except ℤ β) : Prop :=
  (∃ e, raw = some (.error e) ∧ pure = .error e) ∨ ∃ a b, raw = some (.ok a) ∧ pure = .ok b ∧ R a b

variable {α : Type}

theorem Sim.error {β : Type} {R : α → β → Prop} (e : ℤ) :
    Sim R (some (.error e)) (.error e) := .inl ⟨e, rfl, rfl⟩

theorem Sim.ok {β : Type} {R : α → β → Prop} {a : α} {b : β} (h : R a b) : Sim R (some (.ok a)) (.ok b) :=
  .inr ⟨a, b, rfl, rfl, h⟩

theorem Sim.andThen {β α' β' : Type} {R : α → β → Prop} {S : α' → β' → Prop} {raw : Option (Except ℤ α)}
    {pure : Except ℤ β} {f : α → Option (Except ℤ α')} {g : β → Except ℤ β'} (h : Sim R raw pure)
    (hnext : ∀ a b, R a b → Sim S (f a) (g b)) : Sim S (Raw.andThen raw f) (pure.bind g) := by
  rcases h with ⟨e, rfl, rfl⟩ | ⟨a, b, rfl, rfl, hab⟩
  · exact Sim.error e
  · exact hnext a b hab

variable {pos : ℕ} {left : ℤ} {l : Octets}

theorem Place.load (h : Place ie pos left l) {n : ℕ} (hn : n ≤ l.length) : load ie pos n = some (l.take n) := by
  have hlen := congrArg List.length h.rest
  have hin := h.inside
  rw [List.length_drop] at hlen
  rw [Lib.Checked.load, if_pos (by omega), field, h.rest]

theorem Place.loadLE16 (h : Place ie pos left l) (hn : 2 ≤ l.length) : loadLE16 ie pos = some (getLE16 l) := by
  have hget := getLE16_toLE (t := []) (getLE16_lt l)
  rw [List.append_nil, toLE_getLE16 hn] at hget
  rw [RsnIe.loadLE16, h.load hn, Option.map_some, hget]

theorem Place.advance (h : Place ie pos left l) {n : ℕ} (hn : n ≤ l.length) :
    Place ie (pos + n) (left - n) (l.drop n) := by
  have hlen := congrArg List.length h.rest
  have hin := h.inside
  have hleft := h.left
  rw [List.length_drop] at hlen
  refine ⟨by omega, ?_, ?_⟩
  · rw [List.length_drop]
    omega
  · rw [← h.rest, List.drop_drop]

theorem selectors_succ (count : ℕ) (l : Octets) : selectors (count + 1) l = l.take 4 :: selectors count (l.drop 4) := by
  rw [selectors, List.range_succ_eq_map, List.map_cons, List.map_map, selectors]
  refine congrArg₂ _ (by simp) (List.map_congr_left fun k _ => ?_)
  rw [Function.comp_apply, List.drop_drop]
  congr 2
  omega

theorem orSuites_eq (bit : Octets → Option α) (count : ℕ) (h : Place ie pos left l)
    (hcount : 4 * count ≤ l.length) (bits : List α) :
    orSuites bit ie count bits pos left =
      some (bits ++ (selectors count l).filterMap bit, pos + 4 * count, left - 4 * count) := by
  induction count generalizing bits pos left l with
  | zero => simp [orSuites, selectors]
  | succ count ih =>
    have hfour : 4 ≤ l.length := by omega
    have hrest : 4 * count ≤ (l.drop 4).length := by
      rw [List.length_drop]
      omega
    have hstep := ih (h.advance hfour) hrest (bits ++ (bit (l.take 4)).toList)
    rw [orSuites, h.load hfour, Option.bind_some, show left - 4 = left - (4 : ℕ) from rfl, hstep, selectors_succ,
      List.filterMap_cons]
    refine congrArg some (Prod.ext ?_ (Prod.ext ?_ ?_))
    · cases bit (l.take 4) <;> simp
    · change pos + 4 + 4 * count = pos + 4 * (count + 1)
      omega
    · change left - (4 : ℕ) - 4 * count = left - 4 * ((count + 1 : ℕ) : ℤ)
      omega

theorem suites_sim (bit : Octets → Option α) (botch short : ℤ) (h : Place ie pos left l) :
    Sim (fun a b => a.1 = b.1.map (List.filterMap bit) ∧ Place ie a.2.1 a.2.2 b.2)
      (suites bit botch short ie pos left) (RsnIe.suites botch short l) := by
  have hleft := h.left
  by_cases hlong : 2 ≤ l.length
  · rw [suites, if_pos (by omega), h.loadLE16 hlong, Option.bind_some, RsnIe.suites, if_pos hlong]
    dsimp only
    have hrest := h.advance hlong
    have hlen := hrest.left
    by_cases hbotch : getLE16 l = 0 ∨ (l.drop 2).length < 4 * getLE16 l
    · rw [if_pos hbotch, if_pos (by omega)]
      exact Sim.error botch
    rw [if_neg hbotch, if_neg (by omega)]
    rw [not_or] at hbotch
    have hloop := orSuites_eq bit (getLE16 l) hrest (by omega) []
    rw [List.nil_append] at hloop
    rw [show left - 2 = left - (2 : ℕ) from rfl, hloop]
    exact Sim.ok ⟨rfl, hrest.advance (by omega)⟩
  · rw [suites, if_neg (by omega), RsnIe.suites, if_neg hlong]
    by_cases hone : l.length = 1
    · rw [if_pos hone, if_pos (by omega)]
      exact Sim.error short
    · rw [if_neg hone, if_neg (by omega)]
      exact Sim.ok ⟨rfl, h⟩

variable {c : Cursor} {d : WpaIeData}

theorem group_sim (h : At ie c d l) : Sim (fun c r => At ie c r.1 r.2) (group ie c) (RsnIe.group d l) := by
  have hleft := h.place.left
  by_cases hlong : 4 ≤ l.length
  · rw [group, if_pos (by omega), h.place.load hlong, Option.map_some, RsnIe.group, if_pos hlong]
    dsimp only
    by_cases hcmac : rsnSelectorToBitfield (l.take 4) = some .aes128Cmac
    · rw [if_pos hcmac, if_pos hcmac]
      exact Sim.error (-1)
    · rw [if_neg hcmac, if_neg hcmac]
      exact Sim.ok ⟨h.place.advance hlong, { h.data with group := rfl }⟩
  · rw [group, if_neg (by omega), RsnIe.group, if_neg hlong]
    by_cases hzero : 0 < l.length
    · rw [if_pos hzero, if_pos (by omega)]
      exact Sim.error (-3)
    · rw [if_neg hzero, if_neg (by omega)]
      exact Sim.ok h

theorem pairwise_sim (h : At ie c d l) : Sim (fun c r => At ie c r.1 r.2) (pairwise ie c) (RsnIe.pairwise d l) := by
  refine (suites_sim rsnSelectorToBitfield (-4) (-5) h.place).andThen ?_
  rintro ⟨-, pos, left⟩ ⟨list, rest⟩ ⟨rfl, hplace⟩
  cases list with
  | none => exact Sim.ok ⟨hplace, h.data⟩
  | some sels =>
    change Sim _ (if .aes128Cmac ∈ sels.filterMap rsnSelectorToBitfield then _ else _)
      (if .aes128Cmac ∈ sels.filterMap rsnSelectorToBitfield then _ else _)
    by_cases hcmac : .aes128Cmac ∈ sels.filterMap rsnSelectorToBitfield
    · rw [if_pos hcmac, if_pos hcmac]
      exact Sim.error (-1)
    · rw [if_neg hcmac, if_neg hcmac]
      exact Sim.ok ⟨hplace, { h.data with pairwise := rfl }⟩

theorem akm_sim (h : At ie c d l) : Sim (fun c r => At ie c r.1 r.2) (akm ie c) (RsnIe.akm d l) := by
  refine (suites_sim rsnKeyMgmtToBitfield (-6) (-7) h.place).andThen ?_
  rintro ⟨-, pos, left⟩ ⟨list, rest⟩ ⟨rfl, hplace⟩
  cases list with
  | none => exact Sim.ok ⟨hplace, h.data⟩
  | some sels => exact Sim.ok ⟨hplace, { h.data with keyMgmt := rfl }⟩

theorem mgmt_sim (h : At ie c d l) :
    Sim (Sees ie) (andThen (mgmt ie c) fun c => some (.ok c.data)) (RsnIe.mgmt d l) := by
  have hleft := h.place.left
  by_cases hlong : 4 ≤ l.length
  · rw [mgmt, if_pos (by omega), h.place.load hlong, Option.map_some, RsnIe.mgmt, if_pos hlong]
    by_cases hcmac : rsnSelectorToBitfield (l.take 4) = some .aes128Cmac
    · rw [if_pos hcmac, if_neg (not_not.mpr hcmac)]
      exact Sim.ok { h.data with mgmt := rfl }
    · rw [if_neg hcmac, if_pos hcmac]
      exact Sim.error (-10)
  · rw [mgmt, if_neg (by omega), RsnIe.mgmt, if_neg hlong]
    exact Sim.ok h.data

theorem pmkids_sim (h : At ie c d l) :
    Sim (Sees ie) (andThen (pmkids ie c) fun c => andThen (mgmt ie c) fun c => some (.ok c.data)) (afterCaps d l) := by
  have hleft := h.place.left
  by_cases hlong : 2 ≤ l.length
  · have hrest := h.place.advance hlong
    have hlen := hrest.left
    rw [pmkids, if_pos (by omega), h.place.loadLE16 hlong, Option.map_some, afterCaps, if_pos hlong]
    by_cases hunder : (l.drop 2).length < 16 * getLE16 l
    · rw [if_pos hunder, if_pos (by omega)]
      exact Sim.error (-9)
    rw [if_neg hunder, if_neg (by omega)]
    have hbehind := hrest.advance (n := 16 * getLE16 l) (by omega)
    have hin := hbehind.inside
    refine mgmt_sim (c := ⟨_, _, _⟩) ⟨?_, { h.data with pmkids := ⟨c.pos + 2, rfl, by omega, ?_⟩ }⟩
    · rw [List.drop_drop] at hbehind
      have hpos : c.pos + 2 + getLE16 l * 16 = c.pos + 2 + 16 * getLE16 l := by omega
      have hleft' : c.left - 2 - (getLE16 l : ℤ) * 16 = c.left - (2 : ℕ) - (16 * getLE16 l : ℕ) := by omega
      rw [hpos, hleft']
      exact hbehind
    · rw [field, hrest.rest]
  · rw [pmkids, if_neg (by omega), afterCaps, if_neg hlong]
    exact mgmt_sim h

theorem capab_sim (h : At ie c d l) :
    Sim (Sees ie) (andThen (capab ie c) fun c => andThen (pmkids ie c) fun c => andThen (mgmt ie c) fun c =>
      some (.ok c.data)) (trailer d l) := by
  have hleft := h.place.left
  rw [trailer_eq]
  by_cases hlong : 2 ≤ l.length
  · rw [capab, if_pos (by omega), h.place.loadLE16 hlong, Option.map_some, if_pos hlong]
    exact pmkids_sim ⟨h.place.advance hlong, { h.data with capabilities := rfl }⟩
  · rw [capab, if_neg (by omega), if_neg hlong]
    exact pmkids_sim h

theorem header_sim (ie : Octets) : Sim (fun c l => At ie c {} l) (header ie)
    (if ie.length < 4 then .error (-1)
      else if ie.getD 0 0 ≠ eidRsn ∨ (ie.getD 1 0).toNat ≠ ie.length - 2 ∨ getLE16 (ie.drop 2) ≠ 1 then .error (-2)
      else .ok (ie.drop 4)) := by
  by_cases hshort : ie.length < 4
  · rw [header, if_pos hshort, if_pos hshort, ite_self]
    exact Sim.error (-1)
  have hget {k : ℕ} (hk : k < 4) : ie[k]? = some (ie.getD k 0) := by
    rw [List.getD_eq_getElem?_getD, List.getElem?_eq_getElem (by omega), Option.getD_some]
  have hstart : Place ie 0 ie.length ie := ⟨Nat.zero_le _, rfl, rfl⟩
  have hversion := (hstart.advance (n := 2) (by omega)).loadLE16 (by rw [List.length_drop]; omega)
  rw [Nat.zero_add] at hversion
  rw [header, if_neg (by omega), if_neg hshort, if_neg hshort, hget (by omega), Option.bind_some, hget (by omega),
    Option.bind_some, hversion, Option.map_some]
  by_cases hid : ie.getD 0 0 ≠ eidRsn
  · rw [if_pos hid, if_pos (.inl hid)]
    exact Sim.error (-2)
  by_cases hlen : (ie.getD 1 0).toNat ≠ ie.length - 2
  · rw [if_neg hid, if_pos hlen, if_pos (.inr (.inl hlen))]
    exact Sim.error (-2)
  rw [if_neg hid, if_neg hlen]
  by_cases hone : getLE16 (ie.drop 2) ≠ 1
  · rw [if_pos hone, if_pos (.inr (.inr hone))]
    exact Sim.error (-2)
  · rw [if_neg hone, if_neg (by rw [not_or, not_or]; exact ⟨hid, hlen, hone⟩)]
    exact Sim.ok ⟨hstart.advance (n := 4) (by omega), ⟨rfl, rfl, rfl, rfl, ⟨rfl, rfl⟩, rfl⟩⟩

theorem wpaParseWpaIeRsn_sim (ie : Octets) : Sim (Sees ie) (wpaParseWpaIeRsn ie) (RsnIe.wpaParseWpaIeRsn ie) := by
  have hfields (c : Cursor) (l : Octets) (h : At ie c {} l) := (group_sim h).andThen fun c r h =>
    (pairwise_sim h).andThen fun c r h => (akm_sim h).andThen fun c r h => capab_sim h
  have hall := (header_sim ie).andThen hfields
  rw [RsnIe.wpaParseWpaIeRsn]
  by_cases hshort : ie.length < 4
  · rw [if_pos hshort] at hall ⊢
    exact hall
  rw [if_neg hshort] at hall ⊢
  by_cases hhdr : ie.getD 0 0 ≠ eidRsn ∨ (ie.getD 1 0).toNat ≠ ie.length - 2 ∨ getLE16 (ie.drop 2) ≠ 1
  · rw [if_pos hhdr] at hall ⊢
    exact hall
  · rw [if_neg hhdr] at hall ⊢
    exact hall

end Refinement

section Grammar

def pairwiseOf : Body → Option (List Selector)
  | .group _ _ (.list pairwise _ _) => some pairwise.suites
  | _ => none

def akmOf : Body → Option (List Selector)
  | .group _ _ (.list _ _ (.list akm _)) => some akm.suites
  | _ => none

def pmkidsOf : Body → Option (List Pmkid)
  | .group _ _ (.list _ _ (.list _ (.capab _ _ (.list pmkids _ _)))) => some pmkids
  | _ => none

-- The bit fields are the unions of the listed known suites, or the defaults without a list, and the pointer is at the
-- PMKIDs of the body.
structure Means (ie : Octets) (data : IeData) (b : Body) : Prop where
  pairwise : ∀ l, pairwiseOf b = some l →
    ∀ c, c ∈ data.pairwiseCipher ↔ ∃ s ∈ l, rsnSelectorToBitfield s.1 = some c
  noPairwise : pairwiseOf b = none → data.pairwiseCipher = [.ccmp]
  akm : ∀ l, akmOf b = some l → ∀ k, k ∈ data.keyMgmt ↔ ∃ s ∈ l, rsnKeyMgmtToBitfield s.1 = some k
  noAkm : akmOf b = none → data.keyMgmt = [.ieee8021x]
  pmkids : ∀ l, pmkidsOf b = some l → data.numPmkid = l.length ∧ ∃ p, data.pmkid = some p ∧
    p + 16 * data.numPmkid ≤ ie.length ∧ field ie p (16 * data.numPmkid) = l.flatMap Subtype.val
  noPmkids : pmkidsOf b = none → data.pmkid = none ∧ data.numPmkid = 0

variable {ie : Octets} {data : IeData} {b : Body}

theorem fill_lists (b : Body) :
    (b.fill {}).pairwiseCipher = ((pairwiseOf b).map (List.filterMap fun s => rsnSelectorToBitfield s.1)).getD [.ccmp] ∧
      (b.fill {}).keyMgmt = ((akmOf b).map (List.filterMap fun s => rsnKeyMgmtToBitfield s.1)).getD [.ieee8021x] ∧
      (b.fill {}).pmkids = (pmkidsOf b).map (List.flatMap Subtype.val) := by
  -- one case for each place where the body can be cut
  rcases b with _ | ⟨_, _, _ | ⟨_, _, _ | ⟨_, _ | ⟨_, _, _ | ⟨_, _, _ | _⟩⟩⟩⟩⟩ <;> exact ⟨rfl, rfl, rfl⟩

theorem means_of_sees (h : Sees ie data (b.fill {})) : Means ie data b := by
  obtain ⟨hpairwise, hakm, hpmkids⟩ := fill_lists b
  have hin := h.pmkids
  rw [← h.pairwise] at hpairwise
  rw [← h.keyMgmt] at hakm
  rw [hpmkids] at hin
  refine ⟨fun l hl c => ?_, fun hnone => ?_, fun l hl k => ?_, fun hnone => ?_, fun l hl => ?_, fun hnone => ?_⟩
  · rw [hpairwise, hl]
    exact List.mem_filterMap
  · rw [hpairwise, hnone]
    rfl
  · rw [hakm, hl]
    exact List.mem_filterMap
  · rw [hakm, hnone]
    rfl
  · rw [hl] at hin
    obtain ⟨p, hp, hle, hfield⟩ := hin
    have hlen := congrArg List.length hfield
    have hids : (l.flatMap Subtype.val).length = 16 * l.length := length_pieces l
    rw [hids, field, List.length_take, List.length_drop] at hlen
    exact ⟨by omega, p, hp, hle, hfield⟩
  · rw [hnone] at hin
    exact hin

-- Only octets of the string are read; it is accepted just when it is an element of the grammar, and the data are those of
-- its fields.
theorem wpaParseWpaIeRsn_grammar (ie : Octets) :
    ∃ res, wpaParseWpaIeRsn ie = some res ∧
      ((∃ data, res = .ok data) ↔ ∃ b : Body, b.octets.length + 2 < 256 ∧ ie = b.ie) ∧
      ∀ data (b : Body), res = .ok data → b.octets.length + 2 < 256 → ie = b.ie → Means ie data b := by
  rcases wpaParseWpaIeRsn_sim ie with ⟨e, hraw, hpure⟩ | ⟨data, d, hraw, hpure, hsees⟩
  · refine ⟨.error e, hraw, iff_of_false ?_ ?_, ?_⟩
    · rintro ⟨data, hdata⟩
      cases hdata
    · rintro ⟨b, hshort, hie⟩
      have hok := wpaParseWpaIeRsn_iff.2 ⟨b, hshort, hie, rfl⟩
      rw [hpure] at hok
      cases hok
    · intro data b hdata
      cases hdata
  · obtain ⟨b, hshort, hie, -⟩ := wpaParseWpaIeRsn_iff.1 hpure
    refine ⟨.ok data, hraw, iff_of_true ⟨data, rfl⟩ ⟨b, hshort, hie⟩, ?_⟩
    rintro data' b' hdata hshort' hie'
    obtain rfl := Except.ok.inj hdata
    have hfill := wpaParseWpaIeRsn_iff.2 ⟨b', hshort', hie', rfl⟩
    rw [hpure] at hfill
    obtain rfl := Except.ok.inj hfill
    exact means_of_sees hsees

end Grammar

end WpaSupplicant.RsnIe.Raw

import WpaSupplicant.Common

namespace WpaSupplicant.Interworking

def imsiSep (imsi : Octets) : Option ℕ := imsi.findIdx? fun c => c = 0x2d

-- The PLMN of an IMSI as `plmn_id_match` encodes it
def imsiPlmn (imsi : Octets) (sep : ℕ) : Octets :=
  let digit (i : ℕ) : UInt8 := imsi.getD i 0 - 0x30
  [digit 0 ||| (digit 1 <<< 4), digit 2 ||| (if sep = 6 then digit 5 <<< 4 else 0xf0), digit 3 ||| (digit 4 <<< 4)]

-- The loop over the PLMNs of a list, on the octets up to the end of all elements. It stays at the first one.
def plmnLoop (plmn : Octets) : ℕ → Octets → Bool
  | 0, _ => false
  | i + 1, data =>
    if data.length < 3 then false
    else if data.take 3 = plmn then true
    else plmnLoop plmn i data

-- The loop of `plmn_id_match` over the information elements
def elementLoop (plmn : Octets) : ℕ → Octets → Bool
  | fuel + 1, iei :: lenOctet :: rest =>
    let len := (lenOctet &&& 0x7f).toNat
    if rest.length < len then false
    else if iei = 0 ∧ 0 < len ∧ plmnLoop plmn (rest.getD 0 0).toNat (rest.drop 1) = true then true
    else elementLoop plmn fuel (rest.drop len)
  | _, _ => false

def plmnIdMatch (anqp : Option Octets) (imsi : Octets) : Bool :=
  match imsiSep imsi with
  | none => false
  | some sep =>
    if sep ≠ 5 ∧ sep ≠ 6 then false
    else
      match anqp with
      | some (gud :: udhl :: rest) =>
        if gud ≠ 0 then false
        else if rest.length < udhl.toNat then false
        else elementLoop (imsiPlmn imsi sep) udhl.toNat (rest.take udhl.toNat)
      | _ => false

-- An information element: its identifier, its contents, and what follows it
structure InfoElement where
  iei : UInt8
  body : Octets
  after : Octets
  deriving DecidableEq, Repr

def infoElements : ℕ → Octets → List InfoElement
  | fuel + 1, iei :: lenOctet :: rest =>
    let len := (lenOctet &&& 0x7f).toNat
    if rest.length < len then []
    else ⟨iei, rest.take len, rest.drop len⟩ :: infoElements fuel (rest.drop len)
  | _, _ => []

def cellularElements : Octets → List InfoElement
  | gud :: udhl :: rest =>
    if gud = 0 ∧ udhl.toNat ≤ rest.length then infoElements udhl.toNat (rest.take udhl.toNat) else []
  | _ => []

def InfoElement.lists (e : InfoElement) (plmn : Octets) (i : ℕ) : Prop :=
  e.iei = 0 ∧ ∃ num data, e.body = num :: data ∧ i < num.toNat ∧ (data.drop (3 * i)).take 3 = plmn

-- A PLMN List that lists a PLMN ends within its first one, and what follows it completes the PLMN.
def InfoElement.straddles (e : InfoElement) (plmn : Octets) : Prop :=
  e.iei = 0 ∧ ∃ num data, e.body = num :: data ∧ 0 < num.toNat ∧ data.length < 3 ∧
    (data ++ e.after).take 3 = plmn

def plmnOctets (digits : List (Fin 10)) : Octets :=
  let digit (i : ℕ) : ℕ := (digits.getD i 0).val
  [UInt8.ofNat (digit 0 + 16 * digit 1), UInt8.ofNat (digit 2 + 16 * if digits.length = 6 then digit 5 else 15),
    UInt8.ofNat (digit 3 + 16 * digit 4)]

def digitChar (d : Fin 10) : UInt8 := UInt8.ofNat (0x30 + d.val)

def imsiOf (digits : List (Fin 10)) (msin : Octets) : Octets := digits.map digitChar ++ 0x2d :: msin

section Theorems

variable {plmn : Octets} {digits : List (Fin 10)} {msin : Octets}

theorem imsiSep_imsiOf : imsiSep (imsiOf digits msin) = some digits.length := by
  have hdigit : ∀ d : Fin 10, digitChar d ≠ 0x2d := by decide
  have hnone : (digits.map digitChar).findIdx? (fun c => decide (c = 0x2d)) = none := by
    simp [List.findIdx?_eq_none_iff, hdigit]
  rw [imsiSep, imsiOf, List.findIdx?_append, hnone]
  simp [List.findIdx?_cons]

theorem imsiPlmn_imsiOf (hlen : digits.length = 5 ∨ digits.length = 6) :
    imsiPlmn (imsiOf digits msin) digits.length = plmnOctets digits := by
  have hpair : ∀ a b : Fin 10, (digitChar a - 0x30) ||| ((digitChar b - 0x30) <<< (4 : UInt8)) =
      UInt8.ofNat (a.val + 16 * b.val) := by decide
  have hfill : ∀ a : Fin 10, (digitChar a - 0x30) ||| 0xf0 = UInt8.ofNat (a.val + 16 * 15) := by decide
  rcases hlen with hlen | hlen
  · obtain ⟨d0, d1, d2, d3, d4, rfl⟩ : ∃ d0 d1 d2 d3 d4, digits = [d0, d1, d2, d3, d4] := by
      match digits, hlen with
      | [d0, d1, d2, d3, d4], _ => exact ⟨d0, d1, d2, d3, d4, rfl⟩
    show [_, _, _] = [_, _, _]
    congr 1
    · exact hpair d0 d1
    · congr 1
      · exact hfill d2
      · congr 1
        exact hpair d3 d4
  · obtain ⟨d0, d1, d2, d3, d4, d5, rfl⟩ : ∃ d0 d1 d2 d3 d4 d5, digits = [d0, d1, d2, d3, d4, d5] := by
      match digits, hlen with
      | [d0, d1, d2, d3, d4, d5], _ => exact ⟨d0, d1, d2, d3, d4, d5, rfl⟩
    show [_, _, _] = [_, _, _]
    congr 1
    · exact hpair d0 d1
    · congr 1
      · exact hpair d2 d5
      · congr 1
        exact hpair d3 d4

theorem plmnLoop_iff {n : ℕ} {data : Octets} (hplmn : plmn.length = 3) :
    plmnLoop plmn n data = true ↔ 0 < n ∧ data.take 3 = plmn := by
  induction n with
  | zero => simp [plmnLoop]
  | succ n ih =>
    rw [plmnLoop]
    split
    · rename_i hshort
      simp only [Bool.false_eq_true, false_iff, not_and]
      rintro - rfl
      simp only [List.length_take] at hplmn
      omega
    · split
      · rename_i heq
        simp [heq]
      · rename_i hne
        simp [ih, hne]

theorem elementLoop_iff {fuel : ℕ} {l : Octets} (hplmn : plmn.length = 3) : elementLoop plmn fuel l = true ↔
    ∃ e ∈ infoElements fuel l, e.iei = 0 ∧ ∃ num data, e.body = num :: data ∧ 0 < num.toNat ∧
      (data ++ e.after).take 3 = plmn := by
  induction fuel generalizing l with
  | zero => simp [elementLoop, infoElements]
  | succ fuel ih =>
    obtain _ | ⟨iei, _ | ⟨lenOctet, rest⟩⟩ := l
    · simp [elementLoop, infoElements]
    · simp [elementLoop, infoElements]
    simp only [elementLoop, infoElements]
    generalize (lenOctet &&& 0x7f).toNat = len
    by_cases hfits : rest.length < len
    · rw [if_pos hfits, if_pos hfits]
      simp
    rw [if_neg hfits, if_neg hfits]
    -- the PLMNs of an element with contents are looked for up to the end of all elements
    have hhere : (iei = 0 ∧ 0 < len ∧ plmnLoop plmn (rest.getD 0 0).toNat (rest.drop 1) = true) ↔
        iei = 0 ∧ ∃ num data, rest.take len = num :: data ∧ 0 < num.toNat ∧
          (data ++ rest.drop len).take 3 = plmn := by
      rw [plmnLoop_iff hplmn]
      refine and_congr_right fun _ => ?_
      cases len with
      | zero => simp
      | succ len =>
        cases rest with
        | nil => simp at hfits
        | cons num data =>
          simp only [List.take_succ_cons, List.cons.injEq, List.drop_succ_cons, List.getD_cons_zero]
          constructor
          · rintro ⟨-, hnum, htake⟩
            exact ⟨num, _, ⟨rfl, rfl⟩, hnum, by simpa using htake⟩
          · rintro ⟨_, _, ⟨rfl, rfl⟩, hnum, htake⟩
            exact ⟨by omega, hnum, by simpa using htake⟩
    split
    · rename_i hmatch
      simp only [true_iff]
      exact ⟨_, List.mem_cons_self, hhere.mp hmatch⟩
    · rename_i hmatch
      simp only [List.mem_cons, exists_eq_or_imp, ih]
      rw [or_iff_right (mt hhere.mpr hmatch)]

theorem plmnIdMatch_iff {anqp : Octets} (hlen : digits.length = 5 ∨ digits.length = 6) :
    plmnIdMatch (some anqp) (imsiOf digits msin) = true ↔ ∃ e ∈ cellularElements anqp, e.iei = 0 ∧
      ∃ num data, e.body = num :: data ∧ 0 < num.toNat ∧ (data ++ e.after).take 3 = plmnOctets digits := by
  unfold plmnIdMatch cellularElements
  rw [imsiSep_imsiOf]
  dsimp only
  rw [if_neg (by omega), imsiPlmn_imsiOf hlen]
  obtain _ | ⟨gud, _ | ⟨udhl, rest⟩⟩ := anqp
  · simp
  · simp
  dsimp only
  by_cases hgud : gud = 0
  · by_cases hfits : rest.length < udhl.toNat
    · rw [if_neg (by simp [hgud]), if_pos hfits, if_neg (by omega)]
      simp
    · rw [if_neg (by simp [hgud]), if_neg hfits, if_pos ⟨hgud, by omega⟩]
      exact elementLoop_iff rfl
  · rw [if_pos hgud, if_neg (by simp [hgud])]
    simp

theorem found_first_or_straddling {e : InfoElement} (hplmn : plmn.length = 3) :
    (e.iei = 0 ∧ ∃ num data, e.body = num :: data ∧ 0 < num.toNat ∧ (data ++ e.after).take 3 = plmn) ↔
      e.lists plmn 0 ∨ e.straddles plmn := by
  constructor
  · rintro ⟨hiei, num, data, hbody, hnum, htake⟩
    by_cases hshort : data.length < 3
    · exact Or.inr ⟨hiei, num, data, hbody, hnum, hshort, htake⟩
    refine Or.inl ⟨hiei, num, data, hbody, hnum, ?_⟩
    rw [List.take_append_of_le_length (by omega)] at htake
    exact htake
  · rintro (⟨hiei, num, data, hbody, hnum, htake⟩ | ⟨hiei, num, data, hbody, hnum, -, htake⟩)
    · refine ⟨hiei, num, data, hbody, hnum, ?_⟩
      have hthree := congrArg List.length htake
      simp only [Nat.mul_zero, List.drop_zero, List.length_take, hplmn] at hthree
      rw [List.take_append_of_le_length (by omega)]
      exact htake
    · exact ⟨hiei, num, data, hbody, hnum, htake⟩

theorem listed_first_or_later {l : List InfoElement} : (∃ e ∈ l, ∃ i, e.lists plmn i) ↔
    (∃ e ∈ l, e.lists plmn 0) ∨ ∃ e ∈ l, ∃ i, e.lists plmn (i + 1) := by
  constructor
  · rintro ⟨e, he, i, h⟩
    cases i with
    | zero => exact Or.inl ⟨e, he, h⟩
    | succ i => exact Or.inr ⟨e, he, i, h⟩
  · rintro (⟨e, he, h⟩ | ⟨e, he, i, h⟩)
    · exact ⟨e, he, 0, h⟩
    · exact ⟨e, he, i + 1, h⟩

-- A PLMN is found exactly where it is listed, if a list has it first, or no list has it later and none straddles it.
theorem plmn_found_iff_listed (digits : List (Fin 10)) (hlen : digits.length = 5 ∨ digits.length = 6) (msin anqp : Octets) :
    (plmnIdMatch (some anqp) (imsiOf digits msin) = true ↔
        ∃ e ∈ cellularElements anqp, ∃ i, e.lists (plmnOctets digits) i) ↔
      (∃ e ∈ cellularElements anqp, e.lists (plmnOctets digits) 0) ∨
        ((∃ e ∈ cellularElements anqp, ∃ i, e.lists (plmnOctets digits) (i + 1)) ↔
          ∃ e ∈ cellularElements anqp, e.straddles (plmnOctets digits)) := by
  have hcode : plmnIdMatch (some anqp) (imsiOf digits msin) = true ↔
      (∃ e ∈ cellularElements anqp, e.lists (plmnOctets digits) 0) ∨
        ∃ e ∈ cellularElements anqp, e.straddles (plmnOctets digits) := by
    have hthree : (plmnOctets digits).length = 3 := rfl
    rw [plmnIdMatch_iff hlen]
    constructor
    · rintro ⟨e, he, hfound⟩
      exact ((found_first_or_straddling hthree).mp hfound).imp (fun h => ⟨e, he, h⟩) (fun h => ⟨e, he, h⟩)
    · rintro (⟨e, he, h⟩ | ⟨e, he, h⟩)
      · exact ⟨e, he, (found_first_or_straddling hthree).mpr (Or.inl h)⟩
      · exact ⟨e, he, (found_first_or_straddling hthree).mpr (Or.inr h)⟩
  rw [hcode, listed_first_or_later]
  generalize (∃ e ∈ cellularElements anqp, e.lists (plmnOctets digits) 0) = first
  generalize (∃ e ∈ cellularElements anqp, e.straddles (plmnOctets digits)) = straddling
  generalize (∃ e ∈ cellularElements anqp, ∃ i, e.lists (plmnOctets digits) (i + 1)) = later
  tauto

def twoPlmns : Octets := [0, 9, 0, 7, 2, 0x32, 0xf4, 0x10, 0x42, 0xf6, 0x18]

theorem plmn_found_first : plmnIdMatch (some twoPlmns) (imsiOf [2, 3, 4, 0, 1] []) = true ↔
    ∃ e ∈ cellularElements twoPlmns, ∃ i, e.lists (plmnOctets [2, 3, 4, 0, 1]) i :=
  (plmn_found_iff_listed [2, 3, 4, 0, 1] (by decide) [] twoPlmns).mpr
    (Or.inl ⟨_, List.mem_singleton_self _, rfl, _, _, rfl, by decide, by decide⟩)

theorem second_plmn_missed : plmnIdMatch (some twoPlmns) (imsiOf [2, 4, 6, 8, 1] []) = false ∧
    ∃ e ∈ cellularElements twoPlmns, e.lists (plmnOctets [2, 4, 6, 8, 1]) 1 :=
  ⟨by decide, _, List.mem_singleton_self _, rfl, _, _, rfl, by decide, by decide⟩

end Theorems

end WpaSupplicant.Interworking

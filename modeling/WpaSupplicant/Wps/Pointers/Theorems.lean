import WpaSupplicant.Lib.FirstMatch
import WpaSupplicant.Wps.Pointers

namespace WpaSupplicant.Wps

open Lib.Octets Lib.Buffer Lib.Checked Lib.Records Lib.FirstMatch KeyData.Pointers

def Attr.slice (a : Attr) : Slice := ⟨a.pos, a.value.length⟩

namespace Pointers

section Fields

variable (msg : Octets)

-- The loop over the subelements goes on while there are more than two octets.
def wfaSize (fin pos : ℕ) : ℕ := if pos + 2 < fin then 2 + lengthAt msg pos else 0

def wfaSubelems (a : Attr) : List ℕ :=
  if a.type = attrVendorExt ∧ 3 ≤ a.value.length ∧ ofBE (a.value.take 3) = vendorIdWfa then
    records (wfaSize msg (a.pos + a.value.length)) (a.pos + 3) (a.pos + a.value.length)
  else []

def subelems (attrs : ParseAttr) : List ℕ := attrs.reverse.flatMap (wfaSubelems msg)

def subelem (id r : ℕ) : Option Slice := if (octet msg r).toNat = id then some ⟨r + 2, lengthAt msg r⟩ else none

def firsts {β : Type} (p : Attr → Bool) (n : ℕ) (g : Attr → β) (attrs : ParseAttr) : List β :=
  ((List.filter p attrs).reverse.take n).map g

-- What `struct wps_parse_attr` keeps of the attributes that are accepted: of each type, and of each
-- kind of subelement, the last one; and the first ones where there is an array.
def fieldsOf (attrs : ParseAttr) : WpsParseAttr where
  single f :=
    match attrCases.find? (·.field = f) with
    | some c => (attrs.find c.type).map Attr.slice
    | none =>
      match wfaCases.find? (·.field = f) with
      | some c => latest (subelem msg c.type) (subelems msg attrs)
      | none => none
  cred := firsts (·.type = attrCred) maxCredCount Attr.slice attrs
  reqDevType := firsts (·.type = attrRequestedDevType) maxReqDevTypeCount (·.pos) attrs
  vendorExt := (List.filter (fun a => a.type = attrVendorExt && otherVendorExt a.value) attrs).reverse.map Attr.slice

end Fields

theorem attrCases_distinct : Distinct Case.type Case.field attrCases := by
  unfold Distinct
  decide

theorem wfaCases_distinct : Distinct Case.type Case.field wfaCases := by
  unfold Distinct
  decide

section Wfa

variable {msg : Octets} {attr : WpsParseAttr} {pos fin : ℕ}

def WpsParseAttr.withSubelems (msg : Octets) (attr : WpsParseAttr) (rs : List ℕ) : WpsParseAttr :=
  { attr with
    single := fun f =>
      match wfaCases.find? (·.field = f) with
      | some c => (latest (subelem msg c.type) rs).or (attr.single f)
      | none => attr.single f }

theorem withSubelems_of_none {rs : List ℕ} (h : ∀ c ∈ wfaCases, latest (subelem msg c.type) rs = none) :
    attr.withSubelems msg rs = attr := by
  refine WpsParseAttr.ext ?_ rfl rfl rfl
  funext f
  rw [WpsParseAttr.withSubelems]
  dsimp only
  cases hf : wfaCases.find? (·.field = f) with
  | none => rfl
  | some c =>
    dsimp only
    rw [h c (find_key hf).1, Option.none_or]

theorem withSubelems_nil : attr.withSubelems msg [] = attr := withSubelems_of_none fun _ _ => rfl

theorem withSubelems_append (rs rs' : List ℕ) :
    (attr.withSubelems msg rs).withSubelems msg rs' = attr.withSubelems msg (rs ++ rs') := by
  refine WpsParseAttr.ext ?_ rfl rfl rfl
  funext f
  rw [WpsParseAttr.withSubelems, WpsParseAttr.withSubelems, WpsParseAttr.withSubelems]
  dsimp only
  cases hf : wfaCases.find? (·.field = f) with
  | none => rfl
  | some c =>
    dsimp only
    rw [latest_append, Option.or_assoc]

theorem wfaSubelemOk_eq {id len : UInt8} {c : Case} (hc : c ∈ wfaCases) (htype : c.type = id.toNat) :
    c.size.accepts len.toNat = wfaSubelemOk id len := by
  have hid : id = UInt8.ofNat c.type := by rw [htype, UInt8.ofNat_toNat]
  have hone : decide (len.toNat = 1) = decide (len = 1) := decide_eq_decide.2 (UInt8.toNat_inj (b := 1))
  simp only [wfaCases, List.mem_cons, List.not_mem_nil, or_false] at hc
  rcases hc with rfl | rfl | rfl | rfl | rfl
  · rw [hid]
    simpa [wfaSubelemOk, Size.accepts] using hone
  · rw [hid]
    simp [wfaSubelemOk, Size.accepts]
  · rw [hid]
    simpa [wfaSubelemOk, Size.accepts] using hone
  · rw [hid]
    simpa [wfaSubelemOk, Size.accepts] using hone
  · rw [hid]
    simpa [wfaSubelemOk, Size.accepts] using hone

theorem setSubelem_eq (r : ℕ) :
    wpsSetVendorExtWfaSubelem attr (octet msg r).toNat (lengthAt msg r) (r + 2) =
      if wfaSubelemOk (octet msg r) (octet msg (r + 1)) then .ok (attr.withSubelems msg [r]) else .error (-1) := by
  unfold wpsSetVendorExtWfaSubelem
  cases hc : wfaCases.find? (·.type = (octet msg r).toNat) with
  | none =>
    have hnone : ∀ c ∈ wfaCases, c.type ≠ (octet msg r).toNat := by
      intro c hc' htype
      exact List.find?_eq_none.1 hc c hc' (decide_eq_true htype)
    have hok : wfaSubelemOk (octet msg r) (octet msg (r + 1)) = true := by
      have hid : octet msg r ∉ [(0 : UInt8), 2, 3, 4] := by
        intro hmem
        simp only [List.mem_cons, List.not_mem_nil, or_false] at hmem
        rcases hmem with hid | hid | hid | hid
        · exact hnone ⟨0, .version2, .exactly 1⟩ (by decide) (by rw [hid]; rfl)
        · exact hnone ⟨2, .networkKeyShareable, .exactly 1⟩ (by decide) (by rw [hid]; rfl)
        · exact hnone ⟨3, .requestToEnroll, .exactly 1⟩ (by decide) (by rw [hid]; rfl)
        · exact hnone ⟨4, .settingsDelayTime, .exactly 1⟩ (by decide) (by rw [hid]; rfl)
      rw [wfaSubelemOk, decide_eq_true hid, Bool.true_or]
    dsimp only
    rw [hok, if_pos rfl, withSubelems_of_none]
    intro c hc'
    rw [latest, latest, Option.none_or, subelem, if_neg (hnone c hc').symm]
  | some c =>
    obtain ⟨hmem, htype⟩ := find_key hc
    dsimp only
    rw [WpsParseAttr.keep, lengthAt, wfaSubelemOk_eq hmem htype]
    split
    · refine congrArg Except.ok (WpsParseAttr.ext ?_ rfl rfl rfl)
      funext f
      rw [WpsParseAttr.withSubelems]
      dsimp only
      cases hf : wfaCases.find? (·.field = f) with
      | none => rw [Function.update_of_ne (ne_of_find_none (find_key hc).1 hf)]
      | some d =>
        have hiff := (wfaCases_distinct).key_iff hc hf
        dsimp only
        rw [latest, latest, Option.none_or, subelem]
        by_cases heq : f = c.field
        · rw [heq, Function.update_self, if_pos (hiff.2 heq), Option.some_or]
          rfl
        · rw [Function.update_of_ne heq, if_neg fun h => heq (hiff.1 h), Option.none_or]
    · rfl

theorem parseVendorExtWfa_succ (fuel : ℕ) (id len : UInt8) (body : Octets) :
    parseVendorExtWfa (fuel + 1) (id :: len :: body) =
      (body.isEmpty || decide (body.length < len.toNat) ||
        (wfaSubelemOk id len && parseVendorExtWfa fuel (body.drop len.toNat))) := by
  cases body with
  | nil => rfl
  | cons c rest =>
    rw [parseVendorExtWfa]
    by_cases hlen : (c :: rest).length < len.toNat
    · rw [if_pos hlen, decide_eq_true hlen]
      rfl
    · rw [if_neg hlen, decide_eq_false hlen]
      rfl

theorem parseVendorExtWfa_short (fuel : ℕ) {value : Octets} (h : value.length ≤ 2) :
    parseVendorExtWfa fuel value = true := by
  cases fuel with
  | zero => rfl
  | succ fuel =>
    rcases value with _ | ⟨a, _ | ⟨b, _ | ⟨c, l⟩⟩⟩
    · rfl
    · rfl
    · rfl
    · simp only [List.length_cons] at h
      omega

-- The loop over subelements stores those that it reads, or meets one that is not accepted.
theorem wfa_eq (fuel : ℕ) (hfin : fin ≤ msg.length) (hfuel : fin - pos ≤ fuel) :
    wpsParseVendorExtWfa msg attr pos fin =
      some
        (if parseVendorExtWfa fuel (field msg pos (fin - pos)) then
          .ok (attr.withSubelems msg (records (wfaSize msg fin) pos fin))
        else .error (-1)) := by
  have hshort : ∀ {pos fuel} {attr : WpsParseAttr}, ¬ pos + 2 < fin →
      wpsParseVendorExtWfa msg attr pos fin =
        some
          (if parseVendorExtWfa fuel (field msg pos (fin - pos)) then
            .ok (attr.withSubelems msg (records (wfaSize msg fin) pos fin))
          else .error (-1)) := by
    intro pos fuel attr hend
    have hlen : (field msg pos (fin - pos)).length ≤ 2 := by
      rw [field, List.length_take]
      omega
    have hnone : records (wfaSize msg fin) pos fin = [] := by
      rw [records, wfaSize, if_neg hend, if_neg (by omega)]
    rw [wpsParseVendorExtWfa, if_neg hend, parseVendorExtWfa_short fuel hlen, if_pos rfl, hnone, withSubelems_of_none]
    intro c _
    rfl
  induction fuel generalizing pos attr with
  | zero => exact hshort (by omega)
  | succ fuel ih =>
    by_cases hmore : pos + 2 < fin
    · have hvalue : field msg pos (fin - pos) =
          octet msg pos :: octet msg (pos + 1) :: field msg (pos + 2) (fin - (pos + 2)) := by
        have hlen : fin - pos = fin - (pos + 2) + 1 + 1 := by omega
        rw [hlen, field_cons (by omega), field_cons (by omega)]
      have hbody : (field msg (pos + 2) (fin - (pos + 2))).length = fin - (pos + 2) := length_field (by omega)
      have hempty : (field msg (pos + 2) (fin - (pos + 2))).isEmpty = false := by
        rw [List.isEmpty_eq_false_iff, ← List.length_pos_iff]
        omega
      have hsize : wfaSize msg fin pos = 2 + lengthAt msg pos := if_pos hmore
      have hload : loadBE msg (pos + 1) 1 = some (lengthAt msg pos) := loadBE_one (by omega)
      have hlen : (octet msg (pos + 1)).toNat = lengthAt msg pos := rfl
      rw [wpsParseVendorExtWfa, if_pos hmore, loadBE_one (by omega), Option.bind_some, hload,
        Option.bind_some, hvalue, parseVendorExtWfa_succ, hlen, hbody, hempty, Bool.false_or]
      have hdrop : (field msg (pos + 2) (fin - (pos + 2))).drop (lengthAt msg pos) =
          field msg (pos + 2 + lengthAt msg pos) (fin - (pos + 2 + lengthAt msg pos)) := by
        rw [drop_field, ← Nat.sub_add_eq]
      by_cases hover : fin < pos + 2 + lengthAt msg pos
      · have hrecords : records (wfaSize msg fin) pos fin = [] := records_nil (by omega)
        have hless : fin - (pos + 2) < lengthAt msg pos := by omega
        rw [if_pos hover, decide_eq_true hless, Bool.true_or, if_pos rfl, hrecords, withSubelems_of_none]
        intro c _
        rfl
      · have hrecords : records (wfaSize msg fin) pos fin =
            [pos] ++ records (wfaSize msg fin) (pos + 2 + lengthAt msg pos) fin := by
          rw [records_cons (by omega) (by omega), hsize, ← Nat.add_assoc]
          rfl
        have hless : ¬ fin - (pos + 2) < lengthAt msg pos := by omega
        rw [if_neg hover, decide_eq_false hless, Bool.false_or, setSubelem_eq, hdrop, hrecords]
        cases hok : wfaSubelemOk (octet msg pos) (octet msg (pos + 1)) with
        | false => rfl
        | true =>
          rw [if_pos rfl]
          dsimp only
          rw [Bool.true_and, ← withSubelems_append]
          exact ih (by omega)
    · exact hshort hmore

end Wfa

section Attrs

variable {msg : Octets} {attrs : ParseAttr} {a : Attr} {c : Case} {f : Field}

theorem firsts_skip {β : Type} {p : Attr → Bool} {g : Attr → β} {n : ℕ} (h : p a = false) :
    firsts p n g (a :: attrs) = firsts p n g attrs := by
  rw [firsts, List.filter_cons_of_neg (by rw [h]; exact Bool.false_ne_true)]
  rfl

theorem firsts_keep {β : Type} (p : Attr → Bool) (g : Attr → β) (n : ℕ) (attrs : ParseAttr) {a : Attr}
    (h : p a = true) :
    firsts p n g (a :: attrs) =
      if n ≤ (firsts p n g attrs).length then firsts p n g attrs else firsts p n g attrs ++ [g a] := by
  rw [firsts, firsts, List.filter_cons_of_pos h, List.reverse_cons, List.length_map, List.length_take]
  by_cases hn : n ≤ (List.filter p attrs).reverse.length
  · rw [if_pos (by omega), List.take_append_of_le_length hn]
  · rw [if_neg (by omega), List.take_of_length_le (by rw [List.length_append, List.length_singleton]; omega),
      List.take_of_length_le (by omega), List.map_append, List.map_singleton]

theorem find_cons (t : ℕ) : ParseAttr.find (a :: attrs) t = if a.type = t then some a else attrs.find t := by
  rw [ParseAttr.find, List.find?_cons]
  by_cases h : a.type = t
  · rw [if_pos h, decide_eq_true h]
  · rw [if_neg h, decide_eq_false h]
    rfl

theorem subelems_cons : subelems msg (a :: attrs) = subelems msg attrs ++ wfaSubelems msg a := by
  rw [subelems, List.reverse_cons, List.flatMap_append, List.flatMap_singleton]
  rfl

theorem single_attr (hf : attrCases.find? (·.field = f) = some c) :
    (fieldsOf msg attrs).single f = (attrs.find c.type).map Attr.slice := by
  rw [fieldsOf]
  dsimp only
  rw [hf]

theorem single_wfa (hf : attrCases.find? (·.field = f) = none) (hw : wfaCases.find? (·.field = f) = some c) :
    (fieldsOf msg attrs).single f = latest (subelem msg c.type) (subelems msg attrs) := by
  rw [fieldsOf]
  dsimp only
  rw [hf, hw]

theorem single_none (hf : attrCases.find? (·.field = f) = none) (hw : wfaCases.find? (·.field = f) = none) :
    (fieldsOf msg attrs).single f = none := by
  rw [fieldsOf]
  dsimp only
  rw [hf, hw]

theorem cases_disjoint : ∀ c ∈ attrCases, wfaCases.find? (·.field = c.field) = none := by decide

theorem cases_arrays :
    ∀ c ∈ attrCases, c.type ≠ attrCred ∧ c.type ≠ attrRequestedDevType ∧ c.type ≠ attrVendorExt := by
  decide

theorem single_of_case (hc : attrCases.find? (·.type = a.type) = some c) :
    (fieldsOf msg (a :: attrs)).single = Function.update (fieldsOf msg attrs).single c.field (some a.slice) := by
  have hsub : wfaSubelems msg a = [] := by
    obtain ⟨hmem, htype⟩ := find_key hc
    rw [wfaSubelems, if_neg]
    rintro ⟨hvendor, -⟩
    exact (cases_arrays c hmem).2.2 (htype.trans hvendor)
  funext f
  cases hf : attrCases.find? (·.field = f) with
  | some d =>
    have hiff := (attrCases_distinct).key_iff hc hf
    rw [single_attr hf, find_cons]
    by_cases heq : f = c.field
    · rw [if_pos (hiff.2 heq), heq, Function.update_self]
      rfl
    · rw [if_neg fun h => heq (hiff.1 h), Function.update_of_ne heq, single_attr hf]
  | none =>
    rw [Function.update_of_ne (ne_of_find_none (find_key hc).1 hf)]
    cases hw : wfaCases.find? (·.field = f) with
    | some d => rw [single_wfa hf hw, single_wfa hf hw, subelems_cons, hsub, List.append_nil]
    | none => rw [single_none hf hw, single_none hf hw]

theorem single_of_none (hc : attrCases.find? (·.type = a.type) = none) :
    (fieldsOf msg (a :: attrs)).single = ((fieldsOf msg attrs).withSubelems msg (wfaSubelems msg a)).single := by
  funext f
  rw [WpsParseAttr.withSubelems]
  dsimp only
  cases hf : attrCases.find? (·.field = f) with
  | some d =>
    have hw := cases_disjoint d (find_key hf).1
    rw [(find_key hf).2] at hw
    rw [hw, single_attr hf, single_attr hf, find_cons, if_neg (ne_of_find_none (find_key hf).1 hc)]
  | none =>
    cases hw : wfaCases.find? (·.field = f) with
    | some d => rw [single_wfa hf hw, single_wfa hf hw, subelems_cons, latest_append]
    | none => rw [single_none hf hw, single_none hf hw]

end Attrs

section SetAttr

variable {msg : Octets} {attrs : ParseAttr} {c : Case} {type pos len : ℕ} {value : Octets}

def Size.fixed : Size → Option ℕ
  | .exactly n => some n
  | _ => none

-- The two models ask for the same lengths.
theorem attrCases_lengths : ∀ c ∈ attrCases, fixedLengths.lookup c.type = c.size.fixed ∧
    (c.size.fixed.isSome ∨ c.size = .any ∧ c.type ≠ attrSecondaryDevTypeList ∨
      c.size = .listOf devTypeLen secDevTypeMaxLen ∧ c.type = attrSecondaryDevTypeList) := by decide

theorem fixedLengths_cases : ∀ p ∈ fixedLengths,
    p = (attrRequestedDevType, devTypeLen) ∨ (attrCases.find? (·.type = p.1)).isSome := by decide

theorem setAttr_case (hc : attrCases.find? (·.type = type) = some c) :
    setAttr attrs type value = c.size.accepts value.length := by
  obtain ⟨hmem, rfl⟩ := find_key hc
  obtain ⟨hlookup, hsize⟩ := attrCases_lengths c hmem
  unfold setAttr
  rw [hlookup]
  cases hkind : c.size with
  | exactly n => rfl
  | any =>
    rw [hkind] at hsize
    rcases hsize with hfixed | ⟨-, hne⟩ | ⟨hlist, -⟩
    · cases hfixed
    · simp only [Size.fixed]
      rw [if_neg hne, if_neg (cases_arrays c hmem).2.2]
      rfl
    · cases hlist
  | listOf n most =>
    rw [hkind] at hsize
    rcases hsize with hfixed | ⟨hany, -⟩ | ⟨hlist, heq⟩
    · cases hfixed
    · cases hany
    cases hlist
    simp only [Size.fixed]
    rw [if_pos heq]
    rfl

theorem setAttr_none (hc : attrCases.find? (·.type = type) = none) :
    setAttr attrs type value =
      if type = attrRequestedDevType then decide (value.length = devTypeLen)
      else if type = attrVendorExt then parseVendorExt attrs value
      else true := by
  by_cases hreq : type = attrRequestedDevType
  · rw [if_pos hreq, hreq]
    rfl
  have hlookup : fixedLengths.lookup type = none := by
    cases hl : fixedLengths.lookup type with
    | none => rfl
    | some n =>
      obtain ⟨before, after, hsplit, -⟩ := List.lookup_eq_some_iff.1 hl
      have hmem : (type, n) ∈ fixedLengths := by
        rw [hsplit]
        exact List.mem_append_right _ List.mem_cons_self
      rcases fixedLengths_cases (type, n) hmem with heq | hsome
      · exact absurd (congrArg Prod.fst heq) hreq
      · rw [hc] at hsome
        cases hsome
  have hsec : type ≠ attrSecondaryDevTypeList := by
    rintro rfl
    revert hc
    decide
  unfold setAttr
  rw [hlookup, if_neg hreq]
  dsimp only
  rw [if_neg hsec]

end SetAttr

section Refinement

variable {msg : Octets} {attrs : ParseAttr} {c : Case} {type pos len : ℕ}

abbrev attrAt (msg : Octets) (type pos len : ℕ) : Attr := ⟨type, pos, field msg pos len⟩

theorem slice_attrAt (hfin : pos + len ≤ msg.length) : (attrAt msg type pos len).slice = ⟨pos, len⟩ := by
  rw [Attr.slice, length_field hfin]

-- What `wps_set_attr` gives for an attribute that the list model takes or refuses
def setTo (msg : Octets) (attrs : ParseAttr) (a : Attr) : Except ℤ WpsParseAttr :=
  if setAttr attrs a.type a.value then .ok (fieldsOf msg (a :: attrs)) else .error (-1)

theorem fieldsOf_wfa {a : Attr} (hcase : attrCases.find? (·.type = a.type) = none)
    (hcred : a.type ≠ attrCred) (hreq : a.type ≠ attrRequestedDevType)
    (hvendor : (decide (a.type = attrVendorExt) && otherVendorExt a.value) = false) :
    fieldsOf msg (a :: attrs) = (fieldsOf msg attrs).withSubelems msg (wfaSubelems msg a) := by
  refine WpsParseAttr.ext (single_of_none hcase) ?_ ?_ ?_
  · exact firsts_skip (decide_eq_false hcred)
  · exact firsts_skip (decide_eq_false hreq)
  · rw [fieldsOf, List.filter_cons_of_neg (by rw [hvendor]; exact Bool.false_ne_true)]
    rfl

theorem fieldsOf_otherVendor {a : Attr} (htype : a.type = attrVendorExt) (hother : otherVendorExt a.value = true) :
    fieldsOf msg (a :: attrs) =
      { fieldsOf msg attrs with vendorExt := (fieldsOf msg attrs).vendorExt ++ [a.slice] } := by
  have hcase : attrCases.find? (·.type = a.type) = none := by
    rw [htype]
    rfl
  have hcred : a.type ≠ attrCred := by
    rw [htype]
    decide
  have hreq : a.type ≠ attrRequestedDevType := by
    rw [htype]
    decide
  have hsub : wfaSubelems msg a = [] := by
    rw [wfaSubelems, if_neg]
    rintro ⟨-, -, hid⟩
    rw [otherVendorExt, Bool.and_eq_true, decide_eq_true_eq, decide_eq_true_eq] at hother
    exact hother.2 hid
  have hkeep : (decide (a.type = attrVendorExt) && otherVendorExt a.value) = true := by
    rw [hother, decide_eq_true htype]
    rfl
  refine WpsParseAttr.ext ?_ ?_ ?_ ?_
  · rw [single_of_none hcase, hsub, withSubelems_nil]
  · exact firsts_skip (decide_eq_false hcred)
  · exact firsts_skip (decide_eq_false hreq)
  · dsimp only [fieldsOf]
    rw [List.filter_cons_of_pos (p := fun a : Attr => decide (a.type = attrVendorExt) && otherVendorExt a.value) hkeep,
      List.reverse_cons, List.map_append, List.map_singleton]

theorem vendorExt_eq (hfin : pos + len ≤ msg.length) :
    wpsParseVendorExt msg (fieldsOf msg attrs) pos len =
      some (setTo msg attrs (attrAt msg attrVendorExt pos len)) := by
  have hvalue : (field msg pos len).length = len := length_field hfin
  have hcase : attrCases.find? (·.type = attrVendorExt) = none := rfl
  have hcred : attrVendorExt ≠ attrCred := by decide
  have hreq : attrVendorExt ≠ attrRequestedDevType := by decide
  have hset : setAttr attrs attrVendorExt (field msg pos len) = parseVendorExt attrs (field msg pos len) := by
    rw [setAttr_none hcase, if_neg hreq, if_pos rfl]
  rw [wpsParseVendorExt, setTo, hset, parseVendorExt, hvalue]
  by_cases hshort : len < 3
  · have hother : otherVendorExt (field msg pos len) = false := by
      rw [otherVendorExt, hvalue, decide_eq_false (by omega), Bool.false_and]
    have hsub : wfaSubelems msg (attrAt msg attrVendorExt pos len) = [] := by
      rw [wfaSubelems, if_neg]
      rintro ⟨-, hlen, -⟩
      rw [hvalue] at hlen
      omega
    rw [if_pos hshort, if_pos hshort, if_pos rfl]
    refine congrArg (some ∘ Except.ok) ((fieldsOf_wfa hcase hcred hreq ?_).trans ?_).symm
    · rw [hother, Bool.and_false]
    · exact (congrArg _ hsub).trans withSubelems_nil
  · have hid : loadBE msg pos 3 = some (ofBE ((field msg pos len).take 3)) := by
      have htake : (field msg pos len).take 3 = field msg pos 3 := by
        rw [field, List.take_take, Nat.min_eq_left (by omega)]
        rfl
      rw [htake, loadBE, load_eq (by omega), Option.map_some]
    rw [if_neg hshort, if_neg hshort, hid, Option.bind_some]
    by_cases hwfa : ofBE ((field msg pos len).take 3) = vendorIdWfa
    · have hother : otherVendorExt (field msg pos len) = false := by
        rw [otherVendorExt, decide_eq_false (not_not.2 hwfa), Bool.and_false]
      have hsub : wfaSubelems msg (attrAt msg attrVendorExt pos len) =
          records (wfaSize msg (pos + len)) (pos + 3) (pos + len) := by
        rw [wfaSubelems, hvalue, if_pos ⟨rfl, by omega, hwfa⟩]
      have hdrop : (field msg pos len).drop 3 = field msg (pos + 3) (pos + len - (pos + 3)) := by
        rw [drop_field]
        congr 1
        omega
      rw [if_pos hwfa, if_pos hwfa, hdrop, wfa_eq len hfin (by omega)]
      split
      · refine congrArg (some ∘ Except.ok) ((fieldsOf_wfa hcase hcred hreq ?_).trans ?_).symm
        · rw [hother, Bool.and_false]
        · exact congrArg _ hsub
      · rfl
    · have hother : otherVendorExt (field msg pos len) = true := by
        rw [otherVendorExt, hvalue, decide_eq_true (by omega), decide_eq_true hwfa]
        rfl
      have hcount : (List.filter (fun a => a.type = attrVendorExt && otherVendorExt a.value) attrs).length =
          (fieldsOf msg attrs).vendorExt.length := by
        rw [fieldsOf, List.length_map, List.length_reverse]
      rw [if_neg hwfa, if_neg hwfa, hcount]
      by_cases hlong : maxVendorExtLen < len
      · rw [if_pos hlong, if_neg]
        rw [Bool.and_eq_true, decide_eq_true_eq]
        rintro ⟨hle, -⟩
        exact absurd hlong (Nat.not_lt.2 hle)
      rw [if_neg hlong]
      by_cases hroom : maxParseVendorExt ≤ (fieldsOf msg attrs).vendorExt.length
      · rw [if_pos hroom, if_neg]
        rw [Bool.and_eq_true, decide_eq_true_eq, decide_eq_true_eq]
        rintro ⟨-, hlt⟩
        exact absurd hroom (Nat.not_le.2 hlt)
      · rw [if_neg hroom, if_pos]
        · rw [fieldsOf_otherVendor rfl hother, slice_attrAt hfin]
        · rw [Bool.and_eq_true, decide_eq_true_eq, decide_eq_true_eq]
          exact ⟨Nat.le_of_not_lt hlong, Nat.lt_of_not_le hroom⟩

-- `wps_set_attr` takes what the list model takes, and stores what is kept of the attributes then.
theorem setAttr_eq (hfin : pos + len ≤ msg.length) :
    wpsSetAttr msg (fieldsOf msg attrs) type pos len = some (setTo msg attrs (attrAt msg type pos len)) := by
  have hvalue : (field msg pos len).length = len := length_field hfin
  cases hcase : attrCases.find? (·.type = type) with
  | some c =>
    unfold wpsSetAttr
    rw [hcase]
    dsimp only
    rw [setTo, setAttr_case hcase, hvalue, WpsParseAttr.keep]
    split
    · obtain ⟨hcred, hreq, hvendor⟩ := cases_arrays c (find_key hcase).1
      rw [(find_key hcase).2] at hcred hreq hvendor
      refine congrArg (some ∘ Except.ok) (WpsParseAttr.ext ?_ ?_ ?_ ?_).symm
      · rw [single_of_case hcase, slice_attrAt hfin]
      · exact firsts_skip (decide_eq_false hcred)
      · exact firsts_skip (decide_eq_false hreq)
      · dsimp only [fieldsOf]
        rw [List.filter_cons_of_neg]
        rw [decide_eq_false hvendor, Bool.false_and]
        exact Bool.false_ne_true
    · rfl
  | none =>
    by_cases hvendor : type = attrVendorExt
    · subst hvendor
      rw [wpsSetAttr, hcase]
      exact vendorExt_eq hfin
    have hsub : wfaSubelems msg (attrAt msg type pos len) = [] := by
      rw [wfaSubelems, if_neg]
      rintro ⟨htype, -⟩
      exact hvendor htype
    have hsingle : (fieldsOf msg (attrAt msg type pos len :: attrs)).single = (fieldsOf msg attrs).single := by
      rw [single_of_none hcase, hsub, withSubelems_nil]
    have hext : (fieldsOf msg (attrAt msg type pos len :: attrs)).vendorExt = (fieldsOf msg attrs).vendorExt := by
      dsimp only [fieldsOf]
      rw [List.filter_cons_of_neg]
      rw [decide_eq_false hvendor, Bool.false_and]
      exact Bool.false_ne_true
    unfold wpsSetAttr
    rw [hcase]
    dsimp only
    rw [setTo, setAttr_none hcase, hvalue]
    by_cases hcred : type = attrCred
    · have hreq : type ≠ attrRequestedDevType := by
        rw [hcred]
        decide
      have hfirsts := firsts_keep (fun a => decide (a.type = attrCred)) Attr.slice maxCredCount attrs
        (decide_eq_true hcred : decide ((attrAt msg type pos len).type = attrCred) = true)
      rw [slice_attrAt hfin] at hfirsts
      have hroom : (fieldsOf msg attrs).cred = firsts (·.type = attrCred) maxCredCount Attr.slice attrs := rfl
      rw [if_pos hcred, if_neg hreq, if_neg hvendor, if_pos rfl, hroom]
      split
      · rename_i hfull
        rw [if_pos hfull] at hfirsts
        refine congrArg (some ∘ Except.ok) (WpsParseAttr.ext ?_ ?_ ?_ ?_).symm
        · exact hsingle
        · exact hfirsts
        · exact firsts_skip (decide_eq_false hreq)
        · exact hext
      · rename_i hfull
        rw [if_neg hfull] at hfirsts
        refine congrArg (some ∘ Except.ok) (WpsParseAttr.ext ?_ ?_ ?_ ?_).symm
        · exact hsingle
        · exact hfirsts
        · exact firsts_skip (decide_eq_false hreq)
        · exact hext
    · rw [if_neg hcred]
      by_cases hreq : type = attrRequestedDevType
      · have hfirsts := firsts_keep (fun a => decide (a.type = attrRequestedDevType)) Attr.pos maxReqDevTypeCount attrs
          (decide_eq_true hreq : decide ((attrAt msg type pos len).type = attrRequestedDevType) = true)
        have hroom : (fieldsOf msg attrs).reqDevType =
          firsts (·.type = attrRequestedDevType) maxReqDevTypeCount (·.pos) attrs := rfl
        rw [if_pos hreq, if_pos hreq, hroom]
        by_cases hlen : len = devTypeLen
        · rw [if_neg (not_not.2 hlen), if_pos (decide_eq_true hlen)]
          split
          · rename_i hfull
            rw [if_pos hfull] at hfirsts
            refine congrArg (some ∘ Except.ok) (WpsParseAttr.ext ?_ ?_ ?_ ?_).symm
            · exact hsingle
            · exact firsts_skip (decide_eq_false hcred)
            · exact hfirsts
            · exact hext
          · rename_i hfull
            rw [if_neg hfull] at hfirsts
            refine congrArg (some ∘ Except.ok) (WpsParseAttr.ext ?_ ?_ ?_ ?_).symm
            · exact hsingle
            · exact firsts_skip (decide_eq_false hcred)
            · exact hfirsts
            · exact hext
        · rw [if_pos hlen, if_neg (by simpa using hlen)]
      · rw [if_neg hreq, if_neg hvendor, if_neg hreq, if_neg hvendor, if_pos rfl]
        exact congrArg (some ∘ Except.ok)
          (WpsParseAttr.ext hsingle (firsts_skip (decide_eq_false hcred)) (firsts_skip (decide_eq_false hreq)) hext).symm

theorem onlyZeros_eq (n : ℕ) (hfin : pos + n ≤ msg.length) :
    onlyZeros msg pos n = some ((field msg pos n).all (· = 0)) := by
  induction n generalizing pos with
  | zero => rfl
  | succ n ih =>
    rw [onlyZeros, loadBE_one (by omega), Option.bind_some, field_cons (by omega), List.all_cons]
    by_cases hzero : octet msg pos = 0
    · rw [if_neg (by rw [hzero]; decide), ih (by omega), decide_eq_true hzero, Bool.true_and]
    · have hne : (octet msg pos).toNat ≠ 0 := fun h => hzero (UInt8.toNat_inj.1 h)
      rw [if_pos hne, decide_eq_false hzero, Bool.false_and]

-- What `wps_parse_msg` gives for what the list model gives
def outcome (msg : Octets) : Option ParseAttr → Except ℤ WpsParseAttr
  | some attrs => .ok (fieldsOf msg attrs)
  | none => .error (-1)

theorem parseLoop_short (fuel prev : ℕ) (hpos : pos < msg.length) (hshort : msg.length - pos < 4) :
    parseLoop (fuel + 1) prev pos attrs (msg.drop pos) = none := by
  have hlen := List.length_drop (i := pos) (l := msg)
  generalize msg.drop pos = rest at hlen ⊢
  rcases rest with _ | ⟨a, _ | ⟨b, _ | ⟨c, _ | ⟨d, rest⟩⟩⟩⟩
  · rw [List.length_nil] at hlen
    omega
  · rfl
  · rfl
  · rfl
  · simp only [List.length_cons] at hlen
    omega

-- The round of the list model, by the offsets of the pointer model
theorem parseLoop_round (fuel prev : ℕ) (hroom : pos + 4 ≤ msg.length) :
    parseLoop (fuel + 1) prev pos attrs (msg.drop pos) =
      let type := ofBE (field msg pos 2)
      let len := ofBE (field msg (pos + 2) 2)
      if msg.length - (pos + 4) < len then
        if type / 256 ≠ 0x10 ∧ prev = attrNetworkKey then parseLoop fuel prev (pos + 1) attrs (msg.drop (pos + 1))
        else none
      else if type = 0 ∧ len = 0 ∧ (field msg (pos + 4) (msg.length - (pos + 4))).all (· = 0) then some attrs
      else if setAttr attrs type (field msg (pos + 4) len) then
        parseLoop fuel type (pos + 4 + len) (attrAt msg type (pos + 4) len :: attrs) (msg.drop (pos + 4 + len))
      else none := by
  have hdrop : msg.drop pos = octet msg pos :: octet msg (pos + 1) :: octet msg (pos + 2) :: octet msg (pos + 3) ::
      msg.drop (pos + 4) := by
    have hcons : ∀ {p}, p < msg.length → msg.drop p = octet msg p :: msg.drop (p + 1) := by
      intro p hp
      rw [List.drop_eq_getElem_cons hp, octet, List.getD_eq_getElem?_getD, List.getElem?_eq_getElem hp, Option.getD_some]
    rw [hcons (by omega), hcons (by omega), hcons (by omega), hcons (by omega)]
  have htype : field msg pos 2 = [octet msg pos, octet msg (pos + 1)] := by
    rw [field_cons (by omega), field_cons (by omega)]
    rfl
  have hlen : field msg (pos + 2) 2 = [octet msg (pos + 2), octet msg (pos + 3)] := by
    rw [field_cons (by omega), field_cons (by omega)]
    rfl
  have hskip : msg.drop (pos + 1) = octet msg (pos + 1) :: octet msg (pos + 2) :: octet msg (pos + 3) ::
      msg.drop (pos + 4) := by
    rw [← List.drop_drop, hdrop]
    rfl
  have hall : field msg (pos + 4) (msg.length - (pos + 4)) = msg.drop (pos + 4) := by
    rw [field, List.take_of_length_le (by rw [List.length_drop])]
  have hhigh : ofBE [octet msg pos, octet msg (pos + 1)] / 256 ≠ 0x10 ↔ octet msg pos ≠ 0x10 := by
    have hvalue : ofBE [octet msg pos, octet msg (pos + 1)] = 256 * (octet msg pos).toNat + (octet msg (pos + 1)).toNat := by
      simp [ofBE]
    have hlow := (octet msg (pos + 1)).toNat_lt
    rw [hvalue, ne_eq, ne_eq, ← UInt8.toNat_inj]
    have hconst : (16 : UInt8).toNat = 16 := rfl
    rw [hconst]
    omega
  have hrest : ∀ k, msg.drop (pos + 4 + k) = (msg.drop (pos + 4)).drop k := fun k => List.drop_drop.symm
  rw [hdrop, parseLoop, htype, hlen, hall, hskip, List.length_drop]
  dsimp only
  rw [hrest]
  simp only [hhigh]
  rfl

theorem parseFrom_eq (fuel prev : ℕ) (hpos : pos ≤ msg.length) (hfuel : msg.length - pos < fuel) :
    parseFrom msg prev pos (fieldsOf msg attrs) =
      some (outcome msg (parseLoop fuel prev pos attrs (msg.drop pos))) := by
  induction fuel generalizing prev pos attrs with
  | zero => omega
  | succ fuel ih =>
    by_cases hend : pos < msg.length
    · by_cases hshort : msg.length - pos < 4
      · rw [parseFrom, if_pos hend, if_pos hshort, parseLoop_short fuel prev hend hshort]
        rfl
      have htype : loadBE msg pos 2 = some (ofBE (field msg pos 2)) := by
        rw [loadBE, load_eq (by omega), Option.map_some]
      have hlen : loadBE msg (pos + 2) 2 = some (ofBE (field msg (pos + 2) 2)) := by
        rw [loadBE, load_eq (by omega), Option.map_some]
      rw [parseFrom, if_pos hend, if_neg hshort, htype, Option.bind_some, hlen, Option.bind_some,
        parseLoop_round fuel prev (by omega)]
      generalize ofBE (field msg pos 2) = type
      generalize ofBE (field msg (pos + 2) 2) = len
      dsimp only
      by_cases hover : msg.length - (pos + 4) < len
      · rw [if_pos hover, if_pos hover]
        split
        · exact ih prev (by omega) (by omega)
        · rfl
      have hset : wpsSetAttr msg (fieldsOf msg attrs) type (pos + 4) len =
          some (setTo msg attrs (attrAt msg type (pos + 4) len)) := setAttr_eq (by omega)
      rw [if_neg hover, if_neg hover]
      by_cases hzero : type = 0 ∧ len = 0
      · rw [if_pos hzero, onlyZeros_eq _ (by omega), Option.bind_some]
        cases (field msg (pos + 4) (msg.length - (pos + 4))).all (· = 0) with
        | true => 
          rw [if_pos rfl, if_pos ⟨hzero.1, hzero.2, rfl⟩]
          rfl
        | false =>
          rw [if_neg Bool.false_ne_true, if_neg fun h => Bool.false_ne_true h.2.2, hset, Option.bind_some, setTo]
          cases setAttr attrs type (field msg (pos + 4) len) with
          | true => exact ih type (by omega) (by omega)
          | false => rfl
      · rw [if_neg hzero, Option.bind_some, if_neg Bool.false_ne_true, if_neg fun h => hzero ⟨h.1, h.2.1⟩, hset,
          Option.bind_some, setTo]
        cases setAttr attrs type (field msg (pos + 4) len) with
        | true => exact ih type (by omega) (by omega)
        | false => rfl
    · have hrest : msg.drop pos = [] := List.drop_of_length_le (by omega)
      rw [parseFrom, if_neg hend, hrest]
      rfl

theorem fieldsOf_nil (msg : Octets) : fieldsOf msg [] = {} := by
  refine WpsParseAttr.ext ?_ rfl rfl rfl
  funext f
  cases hf : attrCases.find? (·.field = f) with
  | some c => exact single_attr hf
  | none =>
    cases hw : wfaCases.find? (·.field = f) with
    | some c => exact single_wfa hf hw
    | none => exact single_none hf hw

theorem wpsParseMsg_eq (msg : Octets) : wpsParseMsg msg = some (outcome msg (parseMsg msg)) := by
  rw [wpsParseMsg, ← fieldsOf_nil msg]
  exact parseFrom_eq (msg.length + 1) 0 (Nat.zero_le _) (Nat.lt_succ_self _)

end Refinement

section Plain

variable {msg : Octets} {attrs attrs' : ParseAttr} {l z : List (ℕ × Octets)} {pos : ℕ}

def plain (l : List (ℕ × Octets)) : Octets := l.flatMap fun a => tlv a.1 a.2

def Writable (l : List (ℕ × Octets)) : Prop := ∀ a ∈ l, a.1 < 65536 ∧ a.2.length < 65536

theorem plain_cons (a : ℕ × Octets) (l : List (ℕ × Octets)) :
    plain (a :: l) = toBE 2 a.1 ++ toBE 2 a.2.length ++ a.2 ++ plain l := by
  rw [plain, List.flatMap_cons, tlv]
  rfl

theorem length_tlv (a : ℕ × Octets) : (tlv a.1 a.2).length = 4 + a.2.length := by
  simp only [tlv, List.length_append, length_toBE]

theorem zero_types (hl : Writable l) (hzero : (plain l).all (· = 0)) : ∀ a ∈ l, a.1 = 0 := by
  intro a ha
  have hall : ∀ b ∈ toBE 2 a.1, b = 0 := by
    intro b hb
    have hmem : b ∈ plain l := List.mem_flatMap.2 ⟨a, ha, by
      rw [tlv]
      exact List.mem_append_left _ (List.mem_append_left _ hb)⟩
    exact of_decide_eq_true (List.all_eq_true.1 hzero b hmem)
  have hrep : toBE 2 a.1 = [0, 0] := List.eq_replicate_iff.2 ⟨length_toBE 2 a.1, hall⟩
  have hvalue := ofBE_toBE 2 a.1
  rw [hrep] at hvalue
  have hlt := (hl a ha).1
  have hnil : ofBE [0, 0] = 0 := rfl
  rw [hnil] at hvalue
  omega

theorem parseLoop_cons (fuel prev : ℕ) {a : ℕ × Octets} (htype : a.1 < 65536) (hlen : a.2.length < 65536) :
    parseLoop (fuel + 1) prev pos attrs (plain (a :: l)) =
      if a.1 = 0 ∧ a.2.length = 0 ∧ (a.2 ++ plain l).all (· = 0) then some attrs
      else if setAttr attrs a.1 a.2 then
        parseLoop fuel a.1 (pos + 4 + a.2.length) (⟨a.1, pos + 4, a.2⟩ :: attrs) (plain l)
      else none := by
  have hofType : ofBE (toBE 2 a.1) = a.1 := by
    rw [ofBE_toBE]
    exact Nat.mod_eq_of_lt htype
  have hofLen : ofBE (toBE 2 a.2.length) = a.2.length := by
    rw [ofBE_toBE]
    exact Nat.mod_eq_of_lt hlen
  obtain ⟨t1, t0, ht⟩ := List.length_eq_two.1 (length_toBE 2 a.1)
  obtain ⟨l1, l0, hl⟩ := List.length_eq_two.1 (length_toBE 2 a.2.length)
  rw [ht] at hofType
  rw [hl] at hofLen
  have hwhole : plain (a :: l) = t1 :: t0 :: l1 :: l0 :: (a.2 ++ plain l) := by
    rw [plain_cons, ht, hl, List.append_assoc]
    rfl
  have hroom : ¬ (a.2 ++ plain l).length < a.2.length := by
    rw [List.length_append]
    omega
  rw [hwhole, parseLoop, hofType, hofLen]
  rw [if_neg hroom, List.take_left, List.drop_left]

theorem parseLoop_plain (fuel prev : ℕ) (hl : Writable l)
    (h : parseLoop fuel prev pos attrs (plain l) = some attrs') :
    ∃ kept z, l = kept ++ z ∧ (∀ a ∈ z, a.1 = 0) ∧ attrs' = place pos kept ++ attrs := by
  induction fuel generalizing prev pos attrs l with
  | zero => cases h
  | succ fuel ih =>
    cases l with
    | nil =>
      cases h
      exact ⟨[], [], rfl, fun a ha => absurd ha List.not_mem_nil, rfl⟩
    | cons a l =>
      obtain ⟨⟨htype, hlen⟩, hrest⟩ := List.forall_mem_cons.1 hl
      rw [parseLoop_cons fuel prev htype hlen] at h
      split_ifs at h with hpad hset
      · cases h
        have hall : (plain l).all (· = 0) := by
          have hboth := hpad.2.2
          rw [List.all_append, Bool.and_eq_true] at hboth
          exact hboth.2
        exact ⟨[], a :: l, rfl, List.forall_mem_cons.2 ⟨hpad.1, zero_types hrest hall⟩, rfl⟩
      · obtain ⟨kept, z, rfl, hz, rfl⟩ := ih a.1 hrest h
        refine ⟨a :: kept, z, rfl, hz, ?_⟩
        rw [place, List.append_assoc]
        rfl

theorem place_append (l z : List (ℕ × Octets)) :
    place pos (l ++ z) = place (pos + (plain l).length) z ++ place pos l := by
  induction l generalizing pos with
  | nil => exact (List.append_nil _).symm
  | cons a l ih =>
    have hlen : (plain (a :: l)).length = 4 + a.2.length + (plain l).length := by
      rw [plain, List.flatMap_cons, List.length_append, length_tlv]
      rfl
    rw [List.cons_append, place, place, ih, hlen, List.append_assoc, Nat.add_assoc pos, Nat.add_assoc pos]

theorem mem_of_place {a : Attr} (h : a ∈ place pos l) : (a.type, a.value) ∈ l := by
  induction l generalizing pos with
  | nil => cases h
  | cons b l ih =>
    rw [place, List.mem_append, List.mem_singleton] at h
    rcases h with h | rfl
    · exact List.mem_cons_of_mem _ (ih h)
    · exact List.mem_cons_self

theorem place_values {a : Attr} (done : Octets) (h : a ∈ place done.length l) :
    field (done ++ plain l) a.pos a.value.length = a.value := by
  induction l generalizing done with
  | nil => cases h
  | cons b l ih =>
    rw [place, List.mem_append, List.mem_singleton] at h
    rcases h with h | rfl
    · have hlen : (done ++ tlv b.1 b.2).length = done.length + 4 + b.2.length := by
        rw [List.length_append, length_tlv, Nat.add_assoc]
      rw [← hlen] at h
      have hvalue := ih (done ++ tlv b.1 b.2) h
      rw [List.append_assoc] at hvalue
      exact hvalue
    · have hhead : (done ++ (toBE 2 b.1 ++ toBE 2 b.2.length)).length = done.length + 4 := by
        simp only [List.length_append, length_toBE]
      have hsplit : done ++ plain (b :: l) = done ++ (toBE 2 b.1 ++ toBE 2 b.2.length) ++ b.2 ++ plain l := by
        rw [plain_cons]
        simp only [List.append_assoc]
      rw [hsplit]
      exact field_append hhead rfl

theorem fieldsOf_zeros (hz : ∀ a ∈ attrs', a.type = 0) : fieldsOf msg (attrs' ++ attrs) = fieldsOf msg attrs := by
  induction attrs' with
  | nil => rfl
  | cons a attrs' ih =>
    obtain ⟨hzero, hrest⟩ := List.forall_mem_cons.1 hz
    have hvendor : a.type ≠ attrVendorExt := by
      rw [hzero]
      decide
    have hcase : attrCases.find? (·.type = a.type) = none := by
      rw [hzero]
      decide
    have hsub : wfaSubelems msg a = [] := if_neg fun h => hvendor h.1
    rw [List.cons_append, fieldsOf_wfa hcase, hsub, withSubelems_nil, ih hrest]
    · rw [hzero]
      decide
    · rw [hzero]
      decide
    · rw [decide_eq_false hvendor, Bool.false_and]

theorem parse_plain {attr : WpsParseAttr} (hl : Writable l) (h : wpsParseMsg (plain l) = some (.ok attr)) :
    attr = fieldsOf (plain l) (place 0 l) := by
  rw [wpsParseMsg_eq] at h
  cases hparse : parseMsg (plain l) with
  | none =>
    rw [hparse] at h
    cases h
  | some attrs =>
    rw [hparse] at h
    cases h
    obtain ⟨kept, z, hsplit, hz, rfl⟩ := parseLoop_plain _ _ hl hparse
    have hzeros : ∀ a ∈ place (0 + (plain kept).length) z, a.type = 0 := by
      intro a ha
      exact hz _ (mem_of_place ha)
    have hplace : place 0 l = place (0 + (plain kept).length) z ++ place 0 kept := by
      rw [hsplit, place_append]
    rw [hplace, fieldsOf_zeros hzeros, List.append_nil]

theorem cases_complete (f : Field) : (∃ c ∈ attrCases, c.field = f) ∨ ∃ c ∈ wfaCases, c.field = f := by
  cases f <;> decide

end Plain

-- The parser reads inside the string only and succeeds where the list model does; what it stores lies
-- inside; and each field is for the last attribute of its type, that of a WFA subelement for the last one
-- that stands before more than the last two octets.
theorem parse_msg_bounded (msg : Octets) :
    (∃ r, wpsParseMsg msg = some r) ∧
      ((∃ attr, wpsParseMsg msg = some (.ok attr)) ↔ ∃ attrs, parseMsg msg = some attrs) ∧
      ∀ attr, wpsParseMsg msg = some (.ok attr) →
        attr.Inside msg ∧
          ∀ l, Writable l → msg = plain l →
            (∀ a ∈ place 0 l, field msg a.pos a.value.length = a.value) ∧
              ∀ f,
                (∃ c ∈ attrCases, c.field = f ∧
                  attr.single f = ((place 0 l).find? (·.type = c.type)).map Attr.slice) ∨
                ∃ c ∈ wfaCases, c.field = f ∧
                  attr.single f = latest (subelem msg c.type) (subelems msg (place 0 l)) := by
  refine ⟨⟨_, wpsParseMsg_eq msg⟩, ?_, ?_⟩
  · rw [wpsParseMsg_eq]
    cases hparse : parseMsg msg with
    | none => simp [outcome]
    | some attrs => simp [outcome]
  intro attr hparse
  refine ⟨parseFrom_inside inside_empty hparse, ?_⟩
  rintro l hl rfl
  have hattr := parse_plain hl hparse
  refine ⟨fun a ha => place_values [] ha, ?_⟩
  intro f
  cases hf : attrCases.find? (·.field = f) with
  | some c =>
    obtain ⟨hmem, hfield⟩ := find_key hf
    rw [hattr]
    exact .inl ⟨c, hmem, hfield, single_attr hf⟩
  | none =>
    cases hw : wfaCases.find? (·.field = f) with
    | some c =>
      obtain ⟨hmem, hfield⟩ := find_key hw
      rw [hattr]
      exact .inr ⟨c, hmem, hfield, single_wfa hf hw⟩
    | none =>
      rcases cases_complete f with ⟨c, hmem, hfield⟩ | ⟨c, hmem, hfield⟩
      · exact absurd (decide_eq_true hfield) (List.find?_eq_none.1 hf c hmem)
      · exact absurd (decide_eq_true hfield) (List.find?_eq_none.1 hw c hmem)

end Pointers

end WpaSupplicant.Wps

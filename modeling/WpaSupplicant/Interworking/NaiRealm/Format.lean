import WpaSupplicant.Interworking.NaiRealm

namespace WpaSupplicant.Interworking

open Lib.Octets Lib.Repeat

def AuthParamFormat (param : UInt8 × Octets) (x : Octets) : Prop :=
  param.2.length < 256 ∧ x = param.1 :: UInt8.ofNat param.2.length :: param.2

def EapFormat (e : NaiRealmEap) (x : Octets) : Prop :=
  ∃ params body trail, Concat AuthParamFormat params body ∧ params.length < 256 ∧
    2 + body.length + trail.length < 256 ∧
    x = UInt8.ofNat (2 + body.length + trail.length) :: e.method :: UInt8.ofNat params.length :: (body ++ trail) ∧
    e = params.foldl NaiRealmEap.set { method := e.method }

def BodyFormat (r : NaiRealm) (body : Octets) : Prop :=
  ∃ eaps trail, Concat EapFormat r.eap eaps ∧ r.eap.length < 256 ∧ r.realm.length < 256 ∧
    body = r.encoding :: UInt8.ofNat r.realm.length :: (r.realm ++ UInt8.ofNat r.eap.length :: (eaps ++ trail))

def RealmFormat (r : NaiRealm) (x : Octets) : Prop :=
  ∃ body, BodyFormat r body ∧ body.length < 65536 ∧
    x = UInt8.ofNat body.length :: UInt8.ofNat (body.length / 256) :: body

def ListFormat (realms : List NaiRealm) (bytes : Octets) : Prop :=
  ∃ fields trail, Concat RealmFormat realms fields ∧ realms.length < 65536 ∧
    bytes = UInt8.ofNat realms.length :: UInt8.ofNat (realms.length / 256) :: (fields ++ trail)

-- An EAP Method subfield by its length alone: its parameters, and what follows it in the realm
structure EapLayout where
  method : UInt8
  authCount : UInt8
  inside : Octets
  beyond : Octets
  deriving DecidableEq, Repr

def eapLayout : Parser UInt8 EapLayout
  | elen :: method :: authCount :: rest =>
    if rest.length + 2 < elen.toNat ∨ elen.toNat < 2 then none
    else
      some (⟨method, authCount, rest.take (elen.toNat - 2), rest.drop (elen.toNat - 2)⟩,
        rest.drop (elen.toNat - 2))
  | _ => none

structure RealmLayout where
  encoding : UInt8
  realm : Octets
  eap : List EapLayout
  deriving DecidableEq, Repr

def bodyLayout : Octets → Option RealmLayout
  | encoding :: realmLen :: rest =>
    if rest.length < realmLen.toNat then none
    else
      match rest.drop realmLen.toNat with
      | eapCount :: eaps =>
        (times eapLayout eapCount.toNat eaps).map fun e =>
          { encoding := encoding, realm := rest.take realmLen.toNat, eap := e.1 }
      | [] => none
  | _ => none

def realmLayout : Parser UInt8 RealmLayout
  | l0 :: l1 :: rest =>
    let len := l0.toNat + 256 * l1.toNat
    if rest.length < len then none else (bodyLayout (rest.take len)).map fun r => (r, rest.drop len)
  | _ => none

def listLayout : Octets → Option (List RealmLayout)
  | c0 :: c1 :: rest => (times realmLayout (c0.toNat + 256 * c1.toNat) rest).map fun realms => realms.1
  | _ => none

def EapLayout.read (l : EapLayout) (data : Octets) : Option NaiRealmEap :=
  (times authParam l.authCount.toNat data).map fun params => params.1.foldl NaiRealmEap.set { method := l.method }

def EapLayout.inRealm (l : EapLayout) : Option NaiRealmEap := l.read (l.inside ++ l.beyond)

def EapLayout.inSubfield (l : EapLayout) : Option NaiRealmEap := l.read l.inside

def RealmLayout.read (f : EapLayout → Option NaiRealmEap) (l : RealmLayout) : Option NaiRealm :=
  (mapAll f l.eap).map fun eap => { encoding := l.encoding, realm := l.realm, eap := eap }

section Code

variable {l r : Octets} {n : ℕ}

theorem naiRealmParseEap_eq (l : Octets) : naiRealmParseEap l =
    (eapLayout l).bind fun item => item.1.inRealm.map fun e => (e, item.2) := by
  obtain _ | ⟨elen, _ | ⟨method, _ | ⟨authCount, rest⟩⟩⟩ := l
  · rfl
  · rfl
  · rfl
  simp only [naiRealmParseEap, eapLayout]
  by_cases hfits : rest.length + 2 < elen.toNat ∨ elen.toNat < 2
  · rw [if_pos hfits, if_pos hfits]
    rfl
  · rw [if_neg hfits, if_neg hfits]
    simp [EapLayout.inRealm, EapLayout.read, Function.comp_def]

theorem eapLayout_length {item : EapLayout} (h : eapLayout l = some (item, r)) : r.length + 3 ≤ l.length := by
  unfold eapLayout at h
  split at h
  · split at h
    · simp at h
    simp only [Option.some.injEq, Prod.mk.injEq] at h
    simp only [← h.2, List.length_drop, List.length_cons]
    omega
  · simp at h

theorem times_length_le {β : Type} {p : Parser UInt8 β} {k : ℕ} {bs : List β}
    (hp : ∀ l b r, p l = some (b, r) → r.length + k ≤ l.length) (h : times p n l = some (bs, r)) :
    r.length + n * k ≤ l.length := by
  induction n generalizing l bs with
  | zero =>
    simp only [times, Option.some.injEq, Prod.mk.injEq] at h
    simp [h.2]
  | succ n ih =>
    cases bs with
    | nil => simpa using times_length h
    | cons b bs =>
      obtain ⟨r', hb, hbs⟩ := times_succ.1 h
      have hfirst := hp _ _ _ hb
      have hrest := ih hbs
      rw [Nat.succ_mul]
      omega

theorem naiRealmParseBody_eq (body : Octets) : naiRealmParseBody body =
    (bodyLayout body).bind (RealmLayout.read EapLayout.inRealm) := by
  obtain _ | ⟨encoding, _ | ⟨realmLen, rest⟩⟩ := body
  · rfl
  · rfl
  simp only [naiRealmParseBody, bodyLayout]
  by_cases hrealm : rest.length < realmLen.toNat
  · rw [if_pos hrealm, if_pos hrealm]
    rfl
  rw [if_neg hrealm, if_neg hrealm]
  cases rest.drop realmLen.toNat with
  | nil => rfl
  | cons eapCount eaps =>
    have hparse : times naiRealmParseEap eapCount.toNat eaps = (times eapLayout eapCount.toNat eaps).bind
        fun items => (mapAll EapLayout.inRealm items.1).map fun e => (e, items.2) := by
      rw [← times_bind]
      congr 1
      funext l
      exact naiRealmParseEap_eq l
    dsimp only
    rw [hparse]
    cases hlayout : times eapLayout eapCount.toNat eaps with
    | none => simp
    | some items =>
      -- a count that cannot fit has no layout
      have hlen := times_length_le (k := 3) (fun _ _ _ => eapLayout_length) hlayout
      rw [if_neg (by omega)]
      simp [RealmLayout.read, Function.comp_def]

theorem bodyLayout_length {body : Octets} {item : RealmLayout} (h : bodyLayout body = some item) :
    3 ≤ body.length := by
  unfold bodyLayout at h
  split at h
  · split at h
    · simp at h
    split at h
    · rename_i heq
      have hlen := congrArg List.length heq
      simp only [List.length_drop, List.length_cons] at hlen ⊢
      omega
    · simp at h
  · simp at h

theorem naiRealmParseRealm_eq (l : Octets) : naiRealmParseRealm l =
    (realmLayout l).bind fun item => (item.1.read EapLayout.inRealm).map fun e => (e, item.2) := by
  obtain _ | ⟨l0, _ | ⟨l1, rest⟩⟩ := l
  · rfl
  · rfl
  simp only [naiRealmParseRealm, realmLayout, naiRealmParseBody_eq]
  by_cases hfits : rest.length < l0.toNat + 256 * l1.toNat
  · simp [hfits]
  rw [if_neg hfits]
  cases hlayout : bodyLayout (rest.take (l0.toNat + 256 * l1.toNat)) with
  | none => simp
  | some item =>
    -- a field that is too short has no layout
    have hlen := bodyLayout_length hlayout
    simp only [List.length_take] at hlen
    rw [if_neg (by omega), if_neg (by omega)]
    simp

theorem realmLayout_length {item : RealmLayout} (h : realmLayout l = some (item, r)) : r.length + 5 ≤ l.length := by
  unfold realmLayout at h
  split at h
  · dsimp only at h
    split at h
    · simp at h
    simp only [Option.map_eq_some_iff, Prod.mk.injEq] at h
    obtain ⟨_, hbody, -, rfl⟩ := h
    have hlen := bodyLayout_length hbody
    simp only [List.length_take] at hlen
    simp only [List.length_drop, List.length_cons]
    omega
  · simp at h

theorem naiRealmParse_eq (bytes : Octets) : naiRealmParse bytes =
    (listLayout bytes).bind (mapAll (RealmLayout.read EapLayout.inRealm)) := by
  obtain _ | ⟨c0, _ | ⟨c1, rest⟩⟩ := bytes
  · rfl
  · rfl
  simp only [naiRealmParse, listLayout]
  have hparse : times naiRealmParseRealm (c0.toNat + 256 * c1.toNat) rest =
      (times realmLayout (c0.toNat + 256 * c1.toNat) rest).bind
        fun items => (mapAll (RealmLayout.read EapLayout.inRealm) items.1).map fun e => (e, items.2) := by
    rw [← times_bind]
    congr 1
    funext l
    exact naiRealmParseRealm_eq l
  rw [hparse]
  cases hlayout : times realmLayout (c0.toNat + 256 * c1.toNat) rest with
  | none => simp
  | some items =>
    have hlen := times_length_le (k := 5) (fun _ _ _ => realmLayout_length) hlayout
    rw [if_neg (by omega)]
    simp [Function.comp_def]

end Code

theorem toNat_ofNat_lt {n : ℕ} (h : n < 256) : (UInt8.ofNat n).toNat = n := by
  rw [UInt8.toNat_ofNat']
  exact Nat.mod_eq_of_lt h

theorem authParam_exact : Exact authParam AuthParamFormat := by
  intro l param r
  obtain ⟨id, v⟩ := param
  constructor
  · intro h
    obtain _ | ⟨i, _ | ⟨len, rest⟩⟩ := l
    · simp [authParam] at h
    · simp [authParam] at h
    simp only [authParam] at h
    split at h
    · simp at h
    rename_i hfits
    simp only [Option.some.injEq, Prod.mk.injEq] at h
    obtain ⟨⟨rfl, rfl⟩, rfl⟩ := h
    have hlen : (rest.take len.toNat).length = len.toNat := by
      rw [List.length_take]
      omega
    refine ⟨_, ⟨?_, rfl⟩, ?_⟩
    · rw [hlen]
      exact len.toNat_lt
    · rw [hlen, UInt8.ofNat_toNat]
      simp
  · rintro ⟨x, ⟨hlen, rfl⟩, rfl⟩
    simp only at hlen
    simp [authParam, Nat.mod_eq_of_lt hlen]

theorem inSubfield_eq_some {l : EapLayout} {e : NaiRealmEap} : l.inSubfield = some e ↔
    ∃ params body trail, Concat AuthParamFormat params body ∧ params.length = l.authCount.toNat ∧
      l.inside = body ++ trail ∧ e = params.foldl NaiRealmEap.set { method := l.method } := by
  unfold EapLayout.inSubfield EapLayout.read
  simp only [Option.map_eq_some_iff, Prod.exists]
  constructor
  · rintro ⟨params, trail, hparams, rfl⟩
    obtain ⟨body, ⟨hlen, hbody⟩, hinside⟩ := ((authParam_exact).times _ _ _ _).mp hparams
    exact ⟨params, body, trail, hbody, hlen, hinside, rfl⟩
  · rintro ⟨params, body, trail, hbody, hlen, hinside, rfl⟩
    exact ⟨params, trail, ((authParam_exact).times _ _ _ _).mpr ⟨body, ⟨hlen, hbody⟩, hinside⟩, rfl⟩

def nestedEap : Parser UInt8 NaiRealmEap := fun l =>
  (eapLayout l).bind fun item => item.1.inSubfield.map fun e => (e, item.2)

theorem foldl_set_method (params : List (UInt8 × Octets)) (e : NaiRealmEap) :
    (params.foldl NaiRealmEap.set e).method = e.method := by
  induction params generalizing e with
  | nil => rfl
  | cons param params ih =>
    rw [List.foldl_cons, ih]
    obtain ⟨id, _ | ⟨v, vs⟩⟩ := param
    · rfl
    simp only [NaiRealmEap.set]
    repeat' split
    all_goals rfl

theorem nestedEap_exact : Exact nestedEap EapFormat := by
  intro l e r
  constructor
  · intro h
    simp only [nestedEap, Option.bind_eq_some_iff, Option.map_eq_some_iff, Prod.exists, Prod.mk.injEq] at h
    obtain ⟨item, rest, hlayout, e', he, rfl, rfl⟩ := h
    obtain ⟨params, body, trail, hbody, hcount, hinside, rfl⟩ := inSubfield_eq_some.1 he
    obtain _ | ⟨elen, _ | ⟨method, _ | ⟨authCount, tail⟩⟩⟩ := l
    · simp [eapLayout] at hlayout
    · simp [eapLayout] at hlayout
    · simp [eapLayout] at hlayout
    simp only [eapLayout] at hlayout
    split at hlayout
    · simp at hlayout
    rename_i hfits
    simp only [Option.some.injEq, Prod.mk.injEq] at hlayout
    obtain ⟨rfl, rfl⟩ := hlayout
    simp only at hcount hinside
    have hlen := congrArg List.length hinside
    simp only [List.length_take, List.length_append] at hlen
    have helen := elen.toNat_lt
    have hsize : 2 + body.length + trail.length = elen.toNat := by omega
    refine ⟨_, ⟨params, body, trail, hbody, hcount ▸ authCount.toNat_lt, hsize ▸ helen, rfl, ?_⟩, ?_⟩
    · rw [foldl_set_method]
    · rw [hsize, hcount, UInt8.ofNat_toNat, UInt8.ofNat_toNat, foldl_set_method, ← hinside]
      simp
  · rintro ⟨x, ⟨params, body, trail, hbody, hcount, hsize, rfl, he⟩, rfl⟩
    have hlayout : eapLayout (UInt8.ofNat (2 + body.length + trail.length) :: e.method ::
        UInt8.ofNat params.length :: (body ++ trail) ++ r) =
        some (⟨e.method, UInt8.ofNat params.length, body ++ trail, r⟩, r) := by
      simp only [List.cons_append, eapLayout, toNat_ofNat_lt hsize]
      rw [if_neg (by simp only [List.length_append]; omega)]
      have hdrop : 2 + body.length + trail.length - 2 = (body ++ trail).length := by
        rw [List.length_append]
        omega
      rw [hdrop, List.take_left, List.drop_left]
    have hread : EapLayout.inSubfield ⟨e.method, UInt8.ofNat params.length, body ++ trail, r⟩ = some e :=
      inSubfield_eq_some.2 ⟨params, body, trail, hbody, (toNat_ofNat_lt hcount).symm, rfl, he⟩
    show (eapLayout _).bind _ = _
    rw [hlayout]
    simp [hread]

theorem nestedBody_iff {body : Octets} {r : NaiRealm} :
    (bodyLayout body).bind (RealmLayout.read EapLayout.inSubfield) = some r ↔ BodyFormat r body := by
  have htimes : ∀ n eaps, times nestedEap n eaps = (times eapLayout n eaps).bind
      fun items => (mapAll EapLayout.inSubfield items.1).map fun e => (e, items.2) :=
    fun n eaps => times_bind n eaps
  constructor
  · intro h
    simp only [Option.bind_eq_some_iff, RealmLayout.read, Option.map_eq_some_iff] at h
    obtain ⟨layout, hlayout, eap, heap, rfl⟩ := h
    obtain _ | ⟨encoding, _ | ⟨realmLen, rest⟩⟩ := body
    · simp [bodyLayout] at hlayout
    · simp [bodyLayout] at hlayout
    simp only [bodyLayout] at hlayout
    split at hlayout
    · simp at hlayout
    rename_i hrealm
    split at hlayout
    · rename_i eapCount eaps hrest
      simp only [Option.map_eq_some_iff, Prod.exists] at hlayout
      obtain ⟨layouts, trail, hlayouts, rfl⟩ := hlayout
      have hparse : times nestedEap eapCount.toNat eaps = some (eap, trail) := by
        rw [htimes, hlayouts]
        simpa using heap
      obtain ⟨x, ⟨hlen, hx⟩, rfl⟩ := ((nestedEap_exact).times _ _ _ _).mp hparse
      have hrealmLen : (rest.take realmLen.toNat).length = realmLen.toNat := by
        rw [List.length_take]
        omega
      refine ⟨x, trail, hx, hlen ▸ eapCount.toNat_lt, by rw [hrealmLen]; exact realmLen.toNat_lt, ?_⟩
      simp only [hrealmLen, UInt8.ofNat_toNat, hlen]
      rw [← hrest, List.take_append_drop]
    · simp at hlayout
  · rintro ⟨eaps, trail, heaps, hcount, hrealm, rfl⟩
    have hparse : times nestedEap r.eap.length (eaps ++ trail) = some (r.eap, trail) :=
      ((nestedEap_exact).times _ _ _ _).mpr ⟨eaps, ⟨rfl, heaps⟩, rfl⟩
    rw [htimes] at hparse
    simp only [Option.bind_eq_some_iff, Option.map_eq_some_iff, Prod.exists, Prod.mk.injEq] at hparse
    obtain ⟨layouts, rest, hlayouts, eap, heap, rfl, rfl⟩ := hparse
    simp [bodyLayout, Nat.mod_eq_of_lt hrealm, Nat.mod_eq_of_lt hcount, hlayouts, RealmLayout.read, heap]

def nestedRealm : Parser UInt8 NaiRealm := fun l =>
  (realmLayout l).bind fun item => (item.1.read EapLayout.inSubfield).map fun r => (r, item.2)

theorem lengthOctets {n : ℕ} (h : n < 65536) :
    (UInt8.ofNat n).toNat + 256 * (UInt8.ofNat (n / 256)).toNat = n := by
  rw [UInt8.toNat_ofNat', UInt8.toNat_ofNat']
  omega

theorem ofNat_lengthOctets (l0 l1 : UInt8) :
    UInt8.ofNat (l0.toNat + 256 * l1.toNat) = l0 ∧ UInt8.ofNat ((l0.toNat + 256 * l1.toNat) / 256) = l1 := by
  have h0 := l0.toNat_lt
  have h1 := l1.toNat_lt
  constructor <;> apply UInt8.toNat_inj.mp <;> rw [UInt8.toNat_ofNat'] <;> omega

theorem nestedRealm_exact : Exact nestedRealm RealmFormat := by
  intro l realm r
  constructor
  · intro h
    simp only [nestedRealm, Option.bind_eq_some_iff, Option.map_eq_some_iff, Prod.exists, Prod.mk.injEq] at h
    obtain ⟨layout, rest, hlayout, realm', hread, rfl, rfl⟩ := h
    obtain _ | ⟨l0, _ | ⟨l1, tail⟩⟩ := l
    · simp [realmLayout] at hlayout
    · simp [realmLayout] at hlayout
    simp only [realmLayout] at hlayout
    split at hlayout
    · simp at hlayout
    rename_i hfits
    simp only [Option.map_eq_some_iff, Prod.mk.injEq] at hlayout
    obtain ⟨layout', hbody, rfl, rfl⟩ := hlayout
    have hlen : (tail.take (l0.toNat + 256 * l1.toNat)).length = l0.toNat + 256 * l1.toNat := by
      rw [List.length_take]
      omega
    have h0 := l0.toNat_lt
    have h1 := l1.toNat_lt
    obtain ⟨hl0, hl1⟩ := ofNat_lengthOctets l0 l1
    refine ⟨_, ⟨_, nestedBody_iff.1 (by rw [hbody]; exact hread), by omega, rfl⟩, ?_⟩
    rw [hlen, hl0, hl1]
    simp
  · rintro ⟨x, ⟨body, hbody, hlen, rfl⟩, rfl⟩
    obtain ⟨layout, hlayout, hread⟩ := Option.bind_eq_some_iff.mp (nestedBody_iff.2 hbody)
    have hlist : realmLayout (UInt8.ofNat body.length :: UInt8.ofNat (body.length / 256) :: body ++ r) =
        some (layout, r) := by
      simp only [List.cons_append, realmLayout, lengthOctets hlen]
      rw [if_neg (by simp), List.take_left, List.drop_left, hlayout]
      rfl
    show (realmLayout _).bind _ = _
    rw [hlist]
    simp [hread]

theorem nestedList_iff {bytes : Octets} {realms : List NaiRealm} :
    (listLayout bytes).bind (mapAll (RealmLayout.read EapLayout.inSubfield)) = some realms ↔ ListFormat realms bytes := by
  have htimes : ∀ n l, times nestedRealm n l = (times realmLayout n l).bind
      fun items => (mapAll (RealmLayout.read EapLayout.inSubfield) items.1).map fun e => (e, items.2) :=
    fun n l => times_bind n l
  constructor
  · intro h
    obtain ⟨layouts, hlayout, hread⟩ := Option.bind_eq_some_iff.mp h
    obtain _ | ⟨c0, _ | ⟨c1, rest⟩⟩ := bytes
    · simp [listLayout] at hlayout
    · simp [listLayout] at hlayout
    simp only [listLayout, Option.map_eq_some_iff, Prod.exists] at hlayout
    obtain ⟨layouts', trail, hlayouts, rfl⟩ := hlayout
    have hparse : times nestedRealm (c0.toNat + 256 * c1.toNat) rest = some (realms, trail) := by
      rw [htimes, hlayouts]
      simpa using hread
    obtain ⟨fields, ⟨hlen, hfields⟩, rfl⟩ := ((nestedRealm_exact).times _ _ _ _).mp hparse
    have h0 := c0.toNat_lt
    have h1 := c1.toNat_lt
    obtain ⟨hc0, hc1⟩ := ofNat_lengthOctets c0 c1
    refine ⟨fields, trail, hfields, by omega, ?_⟩
    rw [hlen, hc0, hc1]
  · rintro ⟨fields, trail, hfields, hlen, rfl⟩
    have hparse : times nestedRealm realms.length (fields ++ trail) = some (realms, trail) :=
      ((nestedRealm_exact).times _ _ _ _).mpr ⟨fields, ⟨rfl, hfields⟩, rfl⟩
    rw [htimes] at hparse
    simp only [Option.bind_eq_some_iff, Option.map_eq_some_iff, Prod.exists, Prod.mk.injEq] at hparse
    obtain ⟨layouts, rest, hlayouts, realms', hread, rfl, rfl⟩ := hparse
    simp only [listLayout, lengthOctets hlen, hlayouts, Option.map_some, Option.bind_some]
    exact hread

def ParamsInside (bytes : Octets) : Prop :=
  ∀ layouts, listLayout bytes = some layouts →
    (∀ l ∈ layouts, ∀ e ∈ l.eap, e.inRealm.isSome = true) → ∀ l ∈ layouts, ∀ e ∈ l.eap, e.inSubfield.isSome = true

theorem EapLayout.inRealm_of_inSubfield {l : EapLayout} {e : NaiRealmEap} (h : l.inSubfield = some e) :
    l.inRealm = some e := by
  obtain ⟨params, body, trail, hbody, hcount, hinside, rfl⟩ := inSubfield_eq_some.1 h
  have hparse : times authParam l.authCount.toNat (l.inside ++ l.beyond) = some (params, trail ++ l.beyond) :=
    ((authParam_exact).times _ _ _ _).mpr ⟨body, ⟨hcount, hbody⟩, by rw [hinside, List.append_assoc]⟩
  simp [EapLayout.inRealm, EapLayout.read, hparse]

theorem RealmLayout.read_isSome {f : EapLayout → Option NaiRealmEap} {l : RealmLayout} :
    (l.read f).isSome = true ↔ ∀ e ∈ l.eap, (f e).isSome = true := by
  rw [RealmLayout.read, Option.isSome_map, mapAll_isSome]

theorem naiRealmParse_of_format {bytes : Octets} {realms : List NaiRealm} (h : ListFormat realms bytes) :
    naiRealmParse bytes = some realms := by
  obtain ⟨layouts, hlayout, hread⟩ := Option.bind_eq_some_iff.mp (nestedList_iff.2 h)
  rw [naiRealmParse_eq, hlayout]
  refine mapAll_mono (fun l _ r hr => ?_) hread
  simp only [RealmLayout.read, Option.map_eq_some_iff] at hr ⊢
  obtain ⟨eap, heap, rfl⟩ := hr
  exact ⟨eap, mapAll_mono (fun _ _ _ he => EapLayout.inRealm_of_inSubfield he) heap, rfl⟩

-- The parser accepts exactly the well-nested lists, and gives the realms that they encode, where no parameter runs past
-- the end of its EAP Method subfield but not past that of its realm.
theorem naiRealmParse_exact (bytes : Octets) :
    (∀ realms, naiRealmParse bytes = some realms ↔ ListFormat realms bytes) ↔ ParamsInside bytes := by
  have hcode : ∀ layouts, listLayout bytes = some layouts → ((naiRealmParse bytes).isSome = true ↔
      ∀ l ∈ layouts, ∀ e ∈ l.eap, e.inRealm.isSome = true) := by
    intro layouts hlayout
    rw [naiRealmParse_eq, hlayout, Option.bind_some, mapAll_isSome]
    exact forall₂_congr fun l _ => RealmLayout.read_isSome
  have hnested : ∀ layouts, listLayout bytes = some layouts → ((∃ realms, ListFormat realms bytes) ↔
      ∀ l ∈ layouts, ∀ e ∈ l.eap, e.inSubfield.isSome = true) := by
    intro layouts hlayout
    simp only [← nestedList_iff, hlayout, Option.bind_some, ← Option.isSome_iff_exists, mapAll_isSome]
    exact forall₂_congr fun l _ => RealmLayout.read_isSome
  constructor
  · intro hexact layouts hlayout hin
    obtain ⟨realms, hparse⟩ := Option.isSome_iff_exists.mp ((hcode layouts hlayout).mpr hin)
    exact (hnested layouts hlayout).mp ⟨realms, (hexact realms).mp hparse⟩
  · intro hinside realms
    refine ⟨fun hparse => ?_, naiRealmParse_of_format⟩
    obtain ⟨layouts, hlayout, -⟩ := Option.bind_eq_some_iff.mp ((naiRealmParse_eq bytes).symm.trans hparse)
    have hin := (hcode layouts hlayout).mp (by simp [hparse])
    obtain ⟨realms', hformat⟩ := (hnested layouts hlayout).mpr (hinside layouts hlayout hin)
    have hsame := (naiRealmParse_of_format hformat).symm.trans hparse
    simp only [Option.some.injEq] at hsame
    exact hsame ▸ hformat

-- One realm with an EAP-TTLS subfield whose parameter has its value behind the end of the subfield
def overrunningRealm : Octets := [1, 0, 11, 0, 0, 1, 0x61, 1, 4, 21, 1, 2, 1, 4, 0]

theorem overrunning_param_accepted :
    (naiRealmParse overrunningRealm).isSome = true ∧ ∀ realms, ¬ListFormat realms overrunningRealm := by
  refine ⟨by decide, fun realms h => ?_⟩
  have hformat := nestedList_iff.2 h
  have hnone : (listLayout overrunningRealm).bind (mapAll (RealmLayout.read EapLayout.inSubfield)) = none := by decide
  rw [hnone] at hformat
  simp at hformat

end WpaSupplicant.Interworking

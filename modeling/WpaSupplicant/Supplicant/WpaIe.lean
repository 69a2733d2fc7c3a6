import WpaSupplicant.AuthIe
import WpaSupplicant.Lib.Checked
import WpaSupplicant.Supplicant

namespace WpaSupplicant.Supplicant

open Lib.Octets Lib.Checked KeyData

-- The memory from the start of the buffer on, and `pos`
structure Gen where
  mem : Octets
  pos : ℕ
  deriving DecidableEq, Repr

-- How a generator ends: with -1, with a length, or at its `WPA_ASSERT`
inductive GenResult where
  | failed (mem : Octets)
  | returned (mem : Octets) (n : ℕ)
  | assertFailed (mem : Octets)
  deriving DecidableEq, Repr

-- Octets written at `pos`; `none` outside the memory
def put (x : Octets) (g : Gen) : Option Gen :=
  (store g.mem g.pos x).map fun mem => { mem, pos := g.pos + x.length }

-- The fields of an IE one after the other, up to the first that the generator has no suite for
def putFields : List (Option Octets) → Gen → Option (Octets ⊕ Gen)
  | [], g => some (.inr g)
  | none :: _, g => some (.inl g.mem)
  | some x :: fields, g => (put x g).bind (putFields fields)

def closeIe (len : ℕ) (g : Gen) : Option GenResult :=
  (store g.mem 1 [UInt8.ofNat (g.pos - 2)]).map fun mem =>
    if g.pos ≤ len then .returned mem g.pos else .assertFailed mem

def genFields (len : ℕ) (fields : List (Option Octets)) (g : Gen) : Option GenResult :=
  (putFields fields g).bind fun r =>
    match r with
    | .inl mem => some (.failed mem)
    | .inr g => closeIe len g

def wpaPairwiseSuite : Cipher → Option Octets
  | .ccmp => some AuthIe.wpaCipherSuiteCcmp
  | .tkip => some AuthIe.wpaCipherSuiteTkip
  | .none => some AuthIe.wpaCipherSuiteNone
  | _ => none

def rsnPairwiseSuite : Cipher → Option Octets
  | .ccmp => some AuthIe.rsnCipherSuiteCcmp
  | .tkip => some AuthIe.rsnCipherSuiteTkip
  | .none => some AuthIe.rsnCipherSuiteNone
  | _ => none

def wpaAuthKeyMgmtNone : Octets := rsnSelector 0x00 0x50 0xf2 0

def wpaAkmSuite : KeyMgmt → Option Octets
  | .ieee8021x => some AuthIe.wpaAuthKeyMgmtUnspec8021x
  | .psk => some AuthIe.wpaAuthKeyMgmtPskOver8021x
  | .wpaNone => some wpaAuthKeyMgmtNone
  | _ => none

def rsnAkmSuite : KeyMgmt → Option Octets
  | .ieee8021x => some AuthIe.rsnAuthKeyMgmtUnspec8021x
  | .psk => some AuthIe.rsnAuthKeyMgmtPskOver8021x
  | .ieee8021xSha256 => some AuthIe.rsnAuthKeyMgmt8021xSha256
  | .pskSha256 => some AuthIe.rsnAuthKeyMgmtPskSha256
  | _ => none

-- What `wpa_gen_wpa_ie_wpa` writes behind the version
def wpaFields (conf : Config) : List (Option Octets) :=
  [AuthIe.wpaGroupSuite conf.groupCipher,
    some (toLE 2 1), wpaPairwiseSuite conf.pairwiseCipher,
    some (toLE 2 1), wpaAkmSuite conf.keyMgmt]

-- `wpa_gen_wpa_ie_wpa` into a buffer of `len` octets at the start of a memory
def wpaGenWpaIeWpa (conf : Config) (mem : Octets) (len : ℕ) : Option GenResult :=
  if len < 8 + 4 + 2 + 4 + 2 + 4 then some (.failed mem)
  else
    (store mem 0 [eidVendorSpecific]).bind fun mem =>
    (store mem 2 wpaOuiType).bind fun mem =>
    (store mem 6 (toLE 2 1)).bind fun mem =>
    genFields len (wpaFields conf) { mem, pos := 8 }

def mfpCapab : Mfp → ℕ
  | .noMgmtFrameProtection => 0
  | .optional => AuthIe.capabMfpc
  | .required => AuthIe.capabMfpc + AuthIe.capabMfpr

-- The PMKID-Count and the PMKID of `cur_pmksa`
def pmkidField : Option (BitVec 128) → Octets
  | none => []
  | some pmkid => toLE 2 1 ++ putBE 16 pmkid

def mgmtField (conf : Config) (pmksa : Option (BitVec 128)) : Octets :=
  if conf.mgmtGroupCipher = some .aes128Cmac then
    (if pmksa.isNone then toLE 2 0 else []) ++ AuthIe.rsnCipherSuiteAes128Cmac
  else []

-- What `wpa_gen_wpa_ie_rsn` writes behind the version
def rsnFields (conf : Config) (pmksa : Option (BitVec 128)) : List (Option Octets) :=
  [AuthIe.rsnGroupSuite conf.groupCipher,
    some (toLE 2 1), rsnPairwiseSuite conf.pairwiseCipher,
    some (toLE 2 1), rsnAkmSuite conf.keyMgmt,
    some (toLE 2 (mfpCapab conf.mfp)), some (pmkidField pmksa), some (mgmtField conf pmksa)]

-- The length that `wpa_gen_wpa_ie_rsn` asks for
def rsnSize (pmksa : Option (BitVec 128)) : ℕ :=
  4 + 4 + 2 + 4 + 2 + 4 + 2 + if pmksa.isSome then 2 + 16 else 0

def wpaGenWpaIeRsn (conf : Config) (pmksa : Option (BitVec 128)) (mem : Octets) (len : ℕ) :
    Option GenResult :=
  if len < rsnSize pmksa then some (.failed mem)
  else
    (store mem 0 [eidRsn]).bind fun mem =>
    (store mem 2 (toLE 2 1)).bind fun mem =>
    genFields len (rsnFields conf pmksa) { mem, pos := 4 }

-- `wpa_gen_wpa_ie` with the PMKID of `cur_pmksa`; `none` where it writes outside the memory
def wpaGenWpaIe (conf : Config) (pmksa : Option (BitVec 128)) (mem : Octets) (len : ℕ) :
    Option GenResult :=
  match conf.proto with
  | .rsn => wpaGenWpaIeRsn conf pmksa mem len
  | .wpa => wpaGenWpaIeWpa conf mem len

def Respects (mem : Octets) (len : ℕ) : Option GenResult → Prop
  | none => False
  | some (.failed _) => True
  | some (.returned mem' n) => n ≤ len ∧ mem'.length = mem.length ∧ mem'.drop n = mem.drop n
  | some (.assertFailed _) => False

structure Squeezed (conf : Config) (pmksa : Option (BitVec 128)) (len : ℕ) : Prop where
  rsn : conf.proto = .rsn
  group : (AuthIe.rsnGroupSuite conf.groupCipher).isSome
  pairwise : (rsnPairwiseSuite conf.pairwiseCipher).isSome
  akm : (rsnAkmSuite conf.keyMgmt).isSome
  mgmt : conf.mgmtGroupCipher = some .aes128Cmac
  asked : rsnSize pmksa ≤ len
  short : len < rsnSize pmksa + if pmksa.isSome then 4 else 6

section Fields

variable {done rest : Octets} {len : ℕ}

theorem put_append (x : Octets) : put x ⟨done ++ rest, done.length⟩ =
    if x.length ≤ rest.length then
      some ⟨done ++ x ++ rest.drop x.length, (done ++ x).length⟩ else none := by
  by_cases h : x.length ≤ rest.length
  · rw [if_pos h, put, store_append done h, Option.map_some, List.length_append]
  have hout : store (done ++ rest) done.length x = none := by
    rw [store, if_neg]
    rw [List.length_append]
    omega
  rw [if_neg h, put, hout, Option.map_none]

theorem putFields_map_some (os : List Octets) (done rest : Octets) :
    putFields (os.map some) ⟨done ++ rest, done.length⟩ =
      if os.flatten.length ≤ rest.length then
        some (.inr ⟨done ++ os.flatten ++ rest.drop os.flatten.length, (done ++ os.flatten).length⟩)
      else none := by
  induction os generalizing done rest with
  | nil => simp [putFields]
  | cons x os ih =>
    have hlen : (x :: os).flatten.length = x.length + os.flatten.length := by simp
    rw [List.map_cons, putFields, put_append]
    by_cases hx : x.length ≤ rest.length
    · rw [if_pos hx, Option.bind_some, ih, List.length_drop, List.drop_drop, hlen]
      by_cases hos : os.flatten.length ≤ rest.length - x.length
      · rw [if_pos hos, if_pos (by omega)]
        simp
      · rw [if_neg hos, if_neg (by omega)]
    · rw [if_neg hx, if_neg (by omega), Option.bind_none]

theorem putFields_missing {os : List Octets} (l : List (Option Octets)) (done : Octets)
    (hfits : os.flatten.length ≤ rest.length) :
    ∃ mem, putFields (os.map some ++ none :: l) ⟨done ++ rest, done.length⟩ = some (.inl mem) := by
  induction os generalizing done rest with
  | nil => exact ⟨_, rfl⟩
  | cons x os ih =>
    rw [List.flatten_cons, List.length_append] at hfits
    rw [List.map_cons, List.cons_append, putFields, put_append, if_pos (by omega), Option.bind_some]
    exact ih (done ++ x) (by rw [List.length_drop]; omega)

theorem respects_missing (os : List Octets) (mem : Octets) (l : List (Option Octets)) (done : Octets)
    (hfits : os.flatten.length ≤ rest.length) :
    Respects mem len (genFields len (os.map some ++ none :: l) ⟨done ++ rest, done.length⟩) := by
  obtain ⟨mem', hput⟩ := putFields_missing l done hfits
  rw [genFields, hput]
  trivial

theorem closeIe_cons (a b : UInt8) (tail : Octets) (pos : ℕ) :
    closeIe len ⟨a :: b :: tail, pos⟩ =
      some (if pos ≤ len then .returned (a :: UInt8.ofNat (pos - 2) :: tail) pos
        else .assertFailed (a :: UInt8.ofNat (pos - 2) :: tail)) := by
  have hstore := @store_append _ (b :: tail) [UInt8.ofNat (pos - 2)] [a] (by simp)
  rw [closeIe]
  change (store ([a] ++ b :: tail) [a].length [UInt8.ofNat (pos - 2)]).map _ = _
  rw [hstore]
  rfl

theorem genFields_map_some (os : List Octets) (a b : UInt8) (done : Octets) :
    genFields len (os.map some) ⟨a :: b :: done ++ rest, (a :: b :: done).length⟩ =
      if os.flatten.length ≤ rest.length then
        some (if (elem a (done ++ os.flatten)).length ≤ len then
            .returned (elem a (done ++ os.flatten) ++ rest.drop os.flatten.length) (elem a (done ++ os.flatten)).length
          else .assertFailed (elem a (done ++ os.flatten) ++ rest.drop os.flatten.length))
      else none := by
  rw [genFields, putFields_map_some]
  by_cases hfits : os.flatten.length ≤ rest.length
  · rw [if_pos hfits, if_pos hfits, Option.bind_some]
    exact closeIe_cons a b (done ++ os.flatten ++ rest.drop os.flatten.length) _
  · rw [if_neg hfits, if_neg hfits, Option.bind_none]

theorem respects_genFields {mem : Octets} (hlen : len ≤ mem.length) (os : List Octets) (a b : UInt8) {done : Octets}
    (hsplit : mem.length = done.length + 2 + rest.length) (hrest : mem.drop (done.length + 2) = rest) :
    Respects mem len (genFields len (os.map some) ⟨a :: b :: done ++ rest, (a :: b :: done).length⟩) ↔
      done.length + 2 + os.flatten.length ≤ len := by
  have hie : (elem a (done ++ os.flatten)).length = done.length + 2 + os.flatten.length := by
    simp only [elem, List.length_cons, List.length_append]
    omega
  rw [genFields_map_some]
  by_cases hfits : os.flatten.length ≤ rest.length
  · rw [if_pos hfits, hie]
    by_cases hasked : done.length + 2 + os.flatten.length ≤ len
    · rw [if_pos hasked]
      refine iff_of_true ⟨hasked, ?_, ?_⟩ hasked
      · rw [List.length_append, hie, List.length_drop]
        omega
      · rw [← hie, List.drop_left, hie, ← List.drop_drop, hrest]
    · rw [if_neg hasked]
      exact iff_of_false id hasked
  · rw [if_neg hfits]
    exact iff_of_false id (by omega)

end Fields

theorem length_suite {c : Cipher} {s : Octets}
    (h : AuthIe.wpaGroupSuite c = some s ∨ AuthIe.rsnGroupSuite c = some s ∨ wpaPairwiseSuite c = some s ∨
      rsnPairwiseSuite c = some s) : s.length = 4 := by
  rcases h with h | h | h | h <;> cases c <;> cases h <;> rfl

theorem length_akmSuite {k : KeyMgmt} {s : Octets} (h : wpaAkmSuite k = some s ∨ rsnAkmSuite k = some s) :
    s.length = 4 := by
  rcases h with h | h <;> cases k <;> cases h <;> rfl

theorem length_pmkidField (pmksa : Option (BitVec 128)) :
    (pmkidField pmksa).length = if pmksa.isSome then 2 + 16 else 0 := by
  cases pmksa with
  | none => rfl
  | some pmkid => simp [pmkidField]

theorem length_mgmtField (conf : Config) (pmksa : Option (BitVec 128)) : (mgmtField conf pmksa).length =
    if conf.mgmtGroupCipher = some .aes128Cmac then if pmksa.isSome then 4 else 6 else 0 := by
  by_cases hmgmt : conf.mgmtGroupCipher = some .aes128Cmac
  · rw [mgmtField, if_pos hmgmt, if_pos hmgmt]
    cases pmksa <;> rfl
  · rw [mgmtField, if_neg hmgmt, if_neg hmgmt]
    rfl

section Headers

variable {conf : Config} {pmksa : Option (BitVec 128)} {mem : Octets} {len : ℕ}

theorem store_id (id a : UInt8) (tail : Octets) : store (a :: tail) 0 [id] = some (id :: tail) := by
  have h := @store_append _ (a :: tail) [id] [] (by simp)
  exact h

theorem store_tail (a b : UInt8) {tail x : Octets} (h : x.length ≤ tail.length) :
    store (a :: b :: tail) 2 x = some (a :: b :: x ++ tail.drop x.length) := store_append [a, b] h

theorem exists_cons_cons (mem : Octets) {n : ℕ} (h : n + 2 ≤ mem.length) :
    ∃ a b tail, mem = a :: b :: tail ∧ n ≤ tail.length := by
  rcases mem with _ | ⟨a, _ | ⟨b, tail⟩⟩
  · simp at h
  · simp at h
  · exact ⟨a, b, tail, rfl, by simpa using h⟩

theorem wpaGenWpaIeRsn_header (conf : Config) (hmem : len ≤ mem.length) (hlen : rsnSize pmksa ≤ len) :
    ∃ b, wpaGenWpaIeRsn conf pmksa mem len =
      genFields len (rsnFields conf pmksa)
        ⟨eidRsn :: b :: toLE 2 1 ++ mem.drop 4, (eidRsn :: b :: toLE 2 1).length⟩ := by
  have hfour : 2 + 2 ≤ mem.length := by
    rw [rsnSize] at hlen
    omega
  obtain ⟨a, b, tail, rfl, htail⟩ := exists_cons_cons mem hfour
  refine ⟨b, ?_⟩
  rw [wpaGenWpaIeRsn, if_neg (by omega), store_id, Option.bind_some, store_tail _ _ (by simpa using htail),
    Option.bind_some]
  rfl

theorem wpaGenWpaIeWpa_header (conf : Config) (hmem : len ≤ mem.length) (hlen : 24 ≤ len) :
    ∃ b, wpaGenWpaIeWpa conf mem len =
      genFields len (wpaFields conf)
        ⟨eidVendorSpecific :: b :: (wpaOuiType ++ toLE 2 1) ++ mem.drop 8,
          (eidVendorSpecific :: b :: (wpaOuiType ++ toLE 2 1)).length⟩ := by
  obtain ⟨a, b, tail, rfl, htail⟩ := exists_cons_cons mem (n := 6) (by omega)
  have hoff : wpaOuiType.length = 4 := rfl
  have hversion := @store_append _ (tail.drop 4) (toLE 2 1) (eidVendorSpecific :: b :: wpaOuiType)
    (by rw [List.length_drop, length_toLE]; omega)
  refine ⟨b, ?_⟩
  rw [wpaGenWpaIeWpa, if_neg (by omega), store_id, Option.bind_some, store_tail _ _ (by omega), Option.bind_some]
  change (store (eidVendorSpecific :: b :: wpaOuiType ++ tail.drop 4)
    (eidVendorSpecific :: b :: wpaOuiType).length (toLE 2 1)).bind _ = _
  rw [hversion, Option.bind_some, List.drop_drop]
  rfl

end Headers

section Bounds

variable {conf : Config} {pmksa : Option (BitVec 128)} {mem : Octets} {len : ℕ}

-- The three suites fit into what both generators ask for; what is behind them is compared with the length.
theorem respects_suites {rest : Octets} (hlen : len ≤ mem.length) {group pairwise akm : Option Octets}
    (hgroup : ∀ s, group = some s → s.length = 4) (hpairwise : ∀ s, pairwise = some s → s.length = 4)
    (hakm : ∀ s, akm = some s → s.length = 4) (os : List Octets) (a b : UInt8) {done : Octets}
    (hsplit : mem.length = done.length + 2 + rest.length) (hrest : mem.drop (done.length + 2) = rest)
    (hsuites : 16 ≤ rest.length) :
    Respects mem len
        (genFields len ([group, some (toLE 2 1), pairwise, some (toLE 2 1), akm] ++ os.map some)
          ⟨a :: b :: done ++ rest, (a :: b :: done).length⟩) ↔
      (group.isSome → pairwise.isSome → akm.isSome → done.length + 18 + os.flatten.length ≤ len) := by
  cases group with
  | none =>
    refine iff_of_true ?_ (by simp)
    exact respects_missing [] mem _ _ (Nat.zero_le _)
  | some g =>
    have hg := hgroup g rfl
    cases pairwise with
    | none =>
      refine iff_of_true ?_ (by simp)
      exact respects_missing [g, toLE 2 1] mem _ _ (by simp [hg]; omega)
    | some p =>
      have hp := hpairwise p rfl
      cases akm with
      | none =>
        refine iff_of_true ?_ (by simp)
        exact respects_missing [g, toLE 2 1, p, toLE 2 1] mem _ _ (by simp [hg, hp]; omega)
      | some k =>
        have hk := hakm k rfl
        have hall := respects_genFields hlen ([g, toLE 2 1, p, toLE 2 1, k] ++ os) a b hsplit hrest
        have hflat : ([g, toLE 2 1, p, toLE 2 1, k] ++ os).flatten.length = 16 + os.flatten.length := by
          simp only [List.flatten_append, List.length_append, List.flatten_cons, List.flatten_nil, length_toLE,
            List.length_nil, hg, hp, hk]
        rw [hflat] at hall
        simp only [Option.isSome_some, true_imp_iff]
        exact hall.trans (by omega)

theorem wpaGenWpaIeWpa_respects (hmem : len ≤ mem.length) : Respects mem len (wpaGenWpaIeWpa conf mem len) := by
  by_cases hlen : 24 ≤ len
  · obtain ⟨b, hgen⟩ := wpaGenWpaIeWpa_header conf hmem hlen
    rw [hgen]
    refine (respects_suites hmem (fun s hs => length_suite (.inl hs)) (fun s hs => length_suite (.inr (.inr (.inl hs))))
      (fun s hs => length_akmSuite (.inl hs)) [] _ b ?_ rfl ?_).mpr fun _ _ _ => ?_
    · rw [List.length_drop]
      change mem.length = 8 + (mem.length - 8)
      omega
    · rw [List.length_drop]
      change 16 ≤ mem.length - 8
      omega
    · exact hlen
  · rw [wpaGenWpaIeWpa, if_pos (by omega)]
    trivial

theorem wpaGenWpaIeRsn_respects (hmem : len ≤ mem.length) (hrsn : conf.proto = .rsn) :
    Respects mem len (wpaGenWpaIeRsn conf pmksa mem len) ↔ ¬Squeezed conf pmksa len := by
  by_cases hlen : rsnSize pmksa ≤ len
  · obtain ⟨b, hgen⟩ := wpaGenWpaIeRsn_header conf hmem hlen
    have hbase : 22 ≤ rsnSize pmksa := by
      rw [rsnSize]
      omega
    rw [hgen]
    refine (respects_suites hmem (fun s hs => length_suite (.inr (.inl hs)))
      (fun s hs => length_suite (.inr (.inr (.inr hs)))) (fun s hs => length_akmSuite (.inr hs))
      [toLE 2 (mfpCapab conf.mfp), pmkidField pmksa, mgmtField conf pmksa] _ b ?_ rfl ?_).trans ?_
    · rw [List.length_drop]
      change mem.length = 4 + (mem.length - 4)
      omega
    · rw [List.length_drop]
      change 16 ≤ mem.length - 4
      omega
    · have htail : ([toLE 2 (mfpCapab conf.mfp), pmkidField pmksa, mgmtField conf pmksa] : List Octets).flatten.length =
          2 + (if pmksa.isSome then 2 + 16 else 0) +
            if conf.mgmtGroupCipher = some .aes128Cmac then if pmksa.isSome then 4 else 6 else 0 := by
        simp only [List.flatten_cons, List.flatten_nil, List.length_append, length_toLE, length_pmkidField,
          length_mgmtField, List.length_nil]
        omega
      have hsize : rsnSize pmksa = 22 + if pmksa.isSome then 2 + 16 else 0 := rfl
      rw [htail]
      constructor
      · intro hroom hsq
        have hfits := hroom hsq.group hsq.pairwise hsq.akm
        have hshort := hsq.short
        rw [if_pos hsq.mgmt] at hfits
        change 2 + 18 + _ ≤ len at hfits
        omega
      · intro hsq hgroup hpairwise hakm
        change 2 + 18 + _ ≤ len
        by_cases hmgmt : conf.mgmtGroupCipher = some .aes128Cmac
        · rw [if_pos hmgmt]
          by_contra hshort
          exact hsq ⟨hrsn, hgroup, hpairwise, hakm, hmgmt, hlen, by omega⟩
        · rw [if_neg hmgmt]
          omega
  · rw [wpaGenWpaIeRsn, if_pos (by omega)]
    exact iff_of_true trivial fun h => hlen h.asked

-- A generator stays in its buffer just when the Management Group Cipher Suite, which the size test leaves out, has room
-- as well.
theorem wpaGenWpaIe_respects_iff (conf : Config) (pmksa : Option (BitVec 128)) (buf behind : Octets) :
    Respects (buf ++ behind) buf.length (wpaGenWpaIe conf pmksa (buf ++ behind) buf.length) ↔
      ¬Squeezed conf pmksa buf.length := by
  have hmem : buf.length ≤ (buf ++ behind).length := by
    rw [List.length_append]
    omega
  cases hproto : conf.proto with
  | wpa =>
    rw [wpaGenWpaIe, hproto]
    refine iff_of_true (wpaGenWpaIeWpa_respects hmem) fun h => ?_
    rw [h.rsn] at hproto
    cases hproto
  | rsn =>
    rw [wpaGenWpaIe, hproto]
    exact wpaGenWpaIeRsn_respects hmem hproto

theorem mgmt_suite_behind_buffer :
    ¬Respects (List.replicate 22 0 ++ List.replicate 6 0) 22
      (wpaGenWpaIe { ownAddr := 0, mgmtGroupCipher := some .aes128Cmac } none
        (List.replicate 22 0 ++ List.replicate 6 0) 22) := by
  have hgen : wpaGenWpaIe { ownAddr := 0, mgmtGroupCipher := some .aes128Cmac } none
      (List.replicate 22 0 ++ List.replicate 6 0) 22 =
      some (.assertFailed [48, 26, 1, 0, 0, 15, 172, 4, 1, 0, 0, 15, 172, 4, 1, 0, 0, 15, 172, 2, 0, 0, 0, 0, 0, 15,
        172, 6]) := by
    decide
  rw [hgen]
  exact id

end Bounds

end WpaSupplicant.Supplicant

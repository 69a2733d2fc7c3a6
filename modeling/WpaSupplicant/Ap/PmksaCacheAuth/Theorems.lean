import WpaSupplicant.Ap.PmksaCacheAuth.Run

namespace WpaSupplicant.Ap.Pmksa

open Lib.HashChain Lib.SortedList Lib.Machine Lib.Octets

variable {n : ℕ} {cr : Crypto} {s start : Sys n} {a a' : Auth}

-- `pmksa_cache_add_okc` is not called on a cache that is full.
def OkcRoom (cr : Crypto) (s : Sys n) : Op n → Prop
  | .addOkc b _ _ _ => (s.auths b).cache.pmksaCount < pmksaCacheMaxEntries
  | .validate b addr wpaIe _ _ =>
    (∃ old pmkid, selection cr s b addr wpaIe = some (.okc old pmkid)) →
      (s.auths b).cache.pmksaCount < pmksaCacheMaxEntries
  | _ => True

def Bounded (a : Auth) : Prop := (a.cache.pmksa.length : ℤ) ≤ pmksaCacheMaxEntries

theorem Shrinks.bounded (h : Shrinks a a') (hbound : Bounded a) : Bounded a' := by
  have hlen := h.sublist.length_le
  rw [Bounded] at *
  omega

theorem length_link (c : Cache) (e : Entry) :
    (pmksaCacheLinkEntry c e).pmksa.length = c.pmksa.length + 1 :=
  (insertBy_perm Entry.expiration e c.pmksa).length_eq

theorem pmksaCacheAuthAdd_bounded (h : CacheInv a) (hbound : Bounded a) (now : ℤ)
    (alloc : Option Ptr) (pmk : Octets) (aa spa : Addr) (sessionTimeout : ℤ) (akmp : KeyMgmt) :
    Bounded (pmksaCacheAuthAdd now cr a alloc pmk aa spa sessionTimeout akmp) := by
  unfold pmksaCacheAuthAdd
  split
  · exact hbound
  cases alloc with
  | none => exact hbound
  | some ptr =>
    have hreplace := replaceOld_shrinks h spa
    have hroom := makeRoom_length hreplace.inv (hreplace.bounded hbound)
    rw [Bounded, length_link]
    push_cast
    omega

theorem pmksaCacheAddOkc_bounded (h : CacheInv a) (hroom : a.cache.pmksaCount < pmksaCacheMaxEntries)
    (alloc : Option Ptr) (old : Entry) (pmkid : BitVec 128) :
    Bounded (pmksaCacheAddOkc a alloc old pmkid).1 := by
  rw [h.count] at hroom
  cases alloc with
  | none => exact hroom.le
  | some ptr =>
    rw [pmksaCacheAddOkc, Bounded, length_link]
    push_cast
    omega

theorem wpaValidateWpaIe_bounded (h : CacheInv a) (hbound : Bounded a) {caches : List Cache}
    {addr : Addr} {wpaIe : Octets} {ans : IeAnswers} {res : WpaValidateResult}
    (hres : wpaValidateWpaIe cr caches a addr wpaIe ans = some (a', res))
    (hroom : ∀ sm pmkids old pmkid, a.sms addr = some sm →
      (negotiate a.conf sm wpaIe).2 = .inr pmkids →
      selectPmksa cr caches a addr pmkids = some (.okc old pmkid) →
      a.cache.pmksaCount < pmksaCacheMaxEntries) : Bounded a' := by
  have hcopy (a₁ : Auth) : (copyIe a₁ addr wpaIe ans).1.cache = a₁.cache := by
    rw [copyIe]
    repeat' split
    all_goals rfl
  rw [wpaValidateWpaIe] at hres
  split at hres
  · cases hres
    exact hbound
  rename_i sm hsm
  split at hres
  · cases hres
    exact hbound
  rename_i sm' pmkids hneg
  obtain ⟨selected, hsel, heq⟩ := Option.map_eq_some_iff.mp hres
  obtain rfl : (copyIe _ addr wpaIe ans).1 = a' := congrArg Prod.fst heq
  rw [Bounded, hcopy]
  cases selected with
  | cached e => exact hbound
  | nothing => exact hbound
  | okc old pmkid =>
    have hlt := hroom sm pmkids old pmkid hsm (by rw [hneg]) hsel
    exact pmksaCacheAddOkc_bounded h hlt ans.okc old pmkid

theorem exec_bounded (h : Inv s) (hbound : ∀ b, Bounded (s.auths b)) {op : Op n}
    (hop : OkcRoom cr s op) (b : Fin n) : Bounded ((exec cr s op).auths b) := by
  have hset {b' : Fin n} {a : Auth} (ha : Bounded a) : Bounded ((s.set b' a).auths b) := by
    by_cases hb : b = b'
    · subst hb
      simpa [Sys.set] using ha
    · simpa [Sys.set, hb] using hbound b
  unfold exec
  split
  · exact hbound b
  cases op with
  | add b' alloc pmk aa spa sessionTimeout akmp =>
    exact hset (pmksaCacheAuthAdd_bounded (h.cache b') (hbound b') _ _ _ _ _ _ _)
  | addOkc b' alloc old pmkid => exact hset (pmksaCacheAddOkc_bounded (h.cache b') hop _ _ _)
  | expire b' => exact hset ((pmksaCacheExpire_shrinks s.now (h.cache b')).bounded (hbound b'))
  | validate b' addr wpaIe okcAlloc ieAlloc =>
    dsimp only
    split
    · exact hbound b
    rename_i a res hres
    refine hset (wpaValidateWpaIe_bounded (h.cache b') (hbound b') hres ?_)
    intro sm pmkids old pmkid hsm hneg hsel
    exact hop ⟨old, pmkid, by simp only [selection, hsm, hneg, hsel]⟩
  | staInit b' addr => exact hset (hbound b')
  | staDeinit b' addr => exact hset (hbound b')
  | clearPmksa b' addr entry => exact hset (hbound b')
  | tick now => exact hbound b

-- In every run in which `pmksa_cache_add_okc` is not called on a full cache, the list and the chains hold
-- the same entries, sorted and within the limit; a lookup finds exactly what the list has; and no state
-- machine refers to an entry that is not in the list.
theorem pmksa_cache_representation (hstart : start.Initial)
    (hrun : Runs (exec cr) (OkcRoom cr) start s) (b : Fin n) :
    (∀ h e, e ∈ (s.auths b).cache.pmkid h ↔ e ∈ (s.auths b).cache.pmksa ∧ pmkidHash e.pmkid = h) ∧
      (s.auths b).cache.pmksa.Nodup ∧ (∀ h, ((s.auths b).cache.pmkid h).Nodup) ∧
      (s.auths b).cache.pmksa.Pairwise (fun e e' => e.expiration ≤ e'.expiration) ∧
      (s.auths b).cache.pmksaCount = (s.auths b).cache.pmksa.length ∧
      (s.auths b).cache.pmksaCount ≤ 1024 ∧
      (∀ spa pmkid, (pmksaCacheAuthGet (s.auths b).cache spa pmkid).isSome ↔
        ∃ e ∈ (s.auths b).cache.pmksa, (∀ addr, spa = some addr → e.spa = addr) ∧
          ∀ id, pmkid = some id → e.pmkid = id) ∧
      ∀ addr sm p, (s.auths b).sms addr = some sm → sm.pmksa = some p →
        ∃ e ∈ (s.auths b).cache.pmksa, e.ptr = p := by
  have hboth : Inv s ∧ ∀ b, Bounded (s.auths b) := by
    refine hrun.rule (I := fun s => Inv s ∧ ∀ b, Bounded (s.auths b)) ⟨Inv.initial hstart, ?_⟩ ?_
    · intro b
      rw [Bounded, (hstart b).1]
      decide
    · rintro s op ⟨hinv, hbound⟩ hop
      exact ⟨hinv.exec op, exec_bounded hinv hbound hop⟩
  have h := hboth.1.cache b
  refine ⟨fun i e => h.chained.mem_iff, h.nodup, fun i => ?_, h.sorted, h.count, ?_, ?_, h.sms⟩
  · exact (h.chained i).nodup_iff.mpr (h.nodup.filter _)
  · rw [h.count]
    exact hboth.2 b
  · intro spa pmkid
    rw [pmksaCacheAuthGet_isSome h]
    refine exists_congr fun e => and_congr_right fun _ => ?_
    cases spa <;> cases pmkid <;> simp [Entry.isFor] <;> grind

def sampleAuth : Auth where
  addr := 0x020000000001
  conf := { protos := [.rsn], wpaKeyMgmt := [.ieee8021x], wpaPairwise := [], wpaGroup := .ccmp,
            rsnPairwise := [.ccmp] }
  okc := true

def sampleSys : Sys 1 := { auths := fun _ => sampleAuth }

theorem sampleSys_initial : sampleSys.Initial := fun _ =>
  ⟨rfl, fun _ => rfl, rfl, rfl, fun _ _ h => by cases h⟩

def samplePmk : Octets := List.replicate 32 7

def sampleSta : Addr := 0x020000000005

-- Two stations, whose entries are in different chains
theorem pmksa_cache_representation_sample :
    let s := exec .transparent (exec .transparent sampleSys (.add 0 true samplePmk 1 sampleSta 60 .ieee8021x))
      (.add 0 true (List.replicate 32 9) 1 6 30 .ieee8021x)
    (s.auths 0).cache.pmksa.map Entry.spa = [6, sampleSta] ∧
      ((s.auths 0).cache.pmkid 7).map Entry.spa = [sampleSta] ∧ ((s.auths 0).cache.pmkid 9).map Entry.spa = [6] ∧
      (s.auths 0).cache.pmksa.Pairwise (fun e e' => e.expiration ≤ e'.expiration) ∧
      (s.auths 0).cache.pmksaCount ≤ 1024 := by
  have hrun : Runs (exec Crypto.transparent) (OkcRoom Crypto.transparent) sampleSys
      (exec .transparent (exec .transparent sampleSys (.add 0 true samplePmk 1 sampleSta 60 .ieee8021x))
        (.add 0 true (List.replicate 32 9) 1 6 30 .ieee8021x)) :=
    .step _ (.step _ .init trivial) trivial
  obtain ⟨-, -, -, hsorted, -, hcount, -⟩ := pmksa_cache_representation sampleSys_initial hrun 0
  exact ⟨by decide, by decide, by decide, hsorted, hcount⟩

-- An entry of another BSS is added again and again.
def okcOp : Op 1 := .addOkc 0 true
  { ptr := 0, pmkid := 0, pmk := samplePmk, expiration := 60, akmp := .ieee8021x, spa := sampleSta } 0

theorem okc_count (k : ℕ) :
    let s := (List.replicate k okcOp).foldl (exec Crypto.transparent) sampleSys
    s.hung = false ∧ (s.auths 0).cache.pmksaCount = k := by
  induction k with
  | zero => exact ⟨rfl, rfl⟩
  | succ k ih =>
    obtain ⟨hhung, hcount⟩ := ih
    rw [List.replicate_succ', List.foldl_append]
    simp only [List.foldl_cons, List.foldl_nil]
    generalize (List.replicate k okcOp).foldl (exec Crypto.transparent) sampleSys = s at hhung hcount
    simp only [exec, okcOp, hhung, Bool.false_eq_true, if_false, Sys.set, Sys.alloc, if_true,
      pmksaCacheAddOkc, Function.update_self, pmksaCacheLinkEntry, hcount]
    exact ⟨trivial, by push_cast; rfl⟩

-- The limit on the entries is not kept: only `pmksa_cache_auth_add` makes room.
theorem pmksa_cache_limit_exceeded :
    let s := (List.replicate 1025 okcOp).foldl (exec Crypto.transparent) sampleSys
    Runs (exec Crypto.transparent) (fun _ _ => True) sampleSys s ∧ (s.auths 0).cache.pmksaCount = 1025 := by
  refine ⟨Runs.of_list (List.replicate 1025 okcOp) ?_, (okc_count 1025).2⟩
  have hall (ops : List (Op 1)) (s : Sys 1) :
      Allowed (exec Crypto.transparent) (fun _ _ => True) s ops := by
    induction ops generalizing s with
    | nil => trivial
    | cons op ops ih => exact ⟨trivial, ih _⟩
  exact hall _ _

-- The time does not decrease; the timer runs when it is due, and before a frame is received all
-- timers that are due have run.
def Timely (s : Sys n) : Op n → Prop
  | .tick now => s.now ≤ now
  | .expire b => ∃ t, (s.auths b).cache.expireTimer = some t ∧ t ≤ s.now
  | .validate .. => ∀ b t, (s.auths b).cache.expireTimer = some t → s.now < t
  | _ => True

-- A request comes before the first entry of a list is overdue.
def FirstInTime (s : Sys n) : Op n → Prop
  | .validate .. => ∀ b e, (s.auths b).cache.pmksa.head? = some e → s.now ≤ e.expiration + 1
  | _ => True

def selectedExpiration : Selected → Option ℤ
  | .cached e => some e.expiration
  | .okc old _ => some old.expiration
  | .nothing => none

theorem pmksaCacheGetOkc_mem {aa spa : Addr} {pmkid : BitVec 128} {l : List Entry} {e : Entry}
    (h : pmksaCacheGetOkc cr aa spa pmkid l = some (some e)) : e ∈ l := by
  induction l with
  | nil => cases h
  | cons e' l ih =>
    rw [pmksaCacheGetOkc] at h
    split at h
    · cases h
    split at h
    · cases h
      exact List.mem_cons_self
    · exact List.mem_cons_of_mem _ (ih h)

theorem okcForEachAuth_mem {aa spa : Addr} {pmkid : BitVec 128} {l : List Cache} {e : Entry}
    (h : okcForEachAuth cr aa spa pmkid l = some (some e)) : ∃ c ∈ l, e ∈ c.pmksa := by
  induction l with
  | nil => cases h
  | cons c l ih =>
    rw [okcForEachAuth] at h
    split at h
    · cases h
    · rename_i e' hget
      cases h
      exact ⟨c, List.mem_cons_self, pmksaCacheGetOkc_mem hget⟩
    · obtain ⟨c', hc', he⟩ := ih h
      exact ⟨c', List.mem_cons_of_mem _ hc', he⟩

theorem selectOkc_mem {caches : List Cache} {aa spa : Addr} {pmkids : List (BitVec 128)}
    {selected : Selected} (h : selectOkc cr caches aa spa pmkids = some selected) {t : ℤ}
    (ht : selectedExpiration selected = some t) : ∃ c ∈ caches, ∃ e ∈ c.pmksa, e.expiration = t := by
  induction pmkids with
  | nil =>
    cases h
    cases ht
  | cons pmkid next ih =>
    rw [selectOkc] at h
    split at h
    · cases h
    · rename_i old hold
      cases h
      cases ht
      obtain ⟨c, hc, he⟩ := okcForEachAuth_mem hold
      exact ⟨c, hc, old, he, rfl⟩
    · exact ih h

theorem selection_mem (h : Inv s) {b : Fin n} {addr : Addr} {wpaIe : Octets} {selected : Selected}
    (hsel : selection cr s b addr wpaIe = some selected) {t : ℤ}
    (ht : selectedExpiration selected = some t) :
    ∃ b', ∃ e ∈ (s.auths b').cache.pmksa, e.expiration = t := by
  rw [selection] at hsel
  split at hsel
  · cases hsel
  split at hsel
  · cases hsel
  rename_i sm _ pmkids _
  cases selected with
  | cached e =>
    cases ht
    exact ⟨b, e, selectPmksa_cached (h.cache b) hsel, rfl⟩
  | nothing => cases ht
  | okc old pmkid =>
    rw [selectPmksa] at hsel
    split at hsel
    · cases hsel
    split at hsel
    · obtain ⟨c, hc, e, he, hexp⟩ := selectOkc_mem hsel ht
      obtain ⟨b', -, rfl⟩ := List.mem_map.mp hc
      exact ⟨b', e, he, hexp⟩
    · cases hsel

theorem wpaValidateWpaIe_expireTimer {caches : List Cache} {addr : Addr} {wpaIe : Octets}
    {ans : IeAnswers} {res : WpaValidateResult}
    (hres : wpaValidateWpaIe cr caches a addr wpaIe ans = some (a', res)) :
    a'.cache.expireTimer = a.cache.expireTimer := by
  have hcopy (a₁ : Auth) : (copyIe a₁ addr wpaIe ans).1.cache = a₁.cache := by
    rw [copyIe]
    repeat' split
    all_goals rfl
  rw [wpaValidateWpaIe] at hres
  split at hres
  · cases hres
    rfl
  split at hres
  · cases hres
    rfl
  obtain ⟨selected, -, heq⟩ := Option.map_eq_some_iff.mp hres
  obtain rfl : (copyIe _ addr wpaIe ans).1 = a' := congrArg Prod.fst heq
  rw [hcopy]
  cases selected with
  | cached e => rfl
  | nothing => rfl
  | okc old pmkid =>
    cases hans : ans.okc with
    | none =>
      simp only [usePmksa, hans]
      rfl
    | some alloc =>
      simp only [usePmksa, hans]
      rfl

theorem pmksa_expire_timer_not_armed (hstart : start.Initial)
    (hrun : Runs (exec cr) Timely start s) (b : Fin n) :
    (s.auths b).cache.expireTimer = none := by
  refine hrun.rule (I := fun s => ∀ b, (s.auths b).cache.expireTimer = none)
    (fun b => (hstart b).2.2.2.1) (fun s op hs hop b => ?_) b
  have hset {b' : Fin n} {a : Auth} (ha : a.cache.expireTimer = none) :
      ((s.set b' a).auths b).cache.expireTimer = none := by
    by_cases hb : b = b'
    · subst hb
      simpa [Sys.set] using ha
    · simpa [Sys.set, hb] using hs b
  unfold exec
  split
  · exact hs b
  cases op with
  | add b' alloc pmk aa spa sessionTimeout akmp =>
    refine hset ?_
    have hreplace (a : Auth) : (replaceOld a spa).cache.expireTimer = a.cache.expireTimer := by
      rw [replaceOld]
      split <;> rfl
    have hroom (a : Auth) : (makeRoom a).cache.expireTimer = a.cache.expireTimer := by
      rw [makeRoom]
      repeat' split
      all_goals rfl
    unfold pmksaCacheAuthAdd
    split
    · exact hs b'
    cases s.alloc alloc with
    | none => exact hs b'
    | some ptr => exact (hroom _).trans ((hreplace _).trans (hs b'))
  | addOkc b' alloc old pmkid =>
    refine hset ?_
    cases s.alloc alloc with
    | none => exact hs b'
    | some ptr => exact hs b'
  | expire b' =>
    obtain ⟨t, ht, -⟩ := hop
    rw [hs b'] at ht
    cases ht
  | validate b' addr wpaIe okcAlloc ieAlloc =>
    dsimp only
    split
    · exact hs b
    · rename_i a res hres
      exact hset ((wpaValidateWpaIe_expireTimer hres).trans (hs b'))
  | staInit b' addr => exact hset (hs b')
  | staDeinit b' addr => exact hset (hs b')
  | clearPmksa b' addr entry => exact hset (hs b')
  | tick now => exact hs b

-- In every run in which each request comes before the first entry of a list is more than one second
-- past its expiration, no request selects an entry that is.
theorem pmksa_not_expired (hstart : start.Initial)
    (hrun : Runs (exec cr) (fun s op => Timely s op ∧ FirstInTime s op) start s) (b : Fin n)
    (addr : Addr) (wpaIe : Octets) (okcAlloc ieAlloc : Bool)
    (hop : Timely s (.validate b addr wpaIe okcAlloc ieAlloc) ∧
      FirstInTime s (.validate b addr wpaIe okcAlloc ieAlloc)) (selected : Selected)
    (hsel : selection cr s b addr wpaIe = some selected) (t : ℤ)
    (ht : selectedExpiration selected = some t) : s.now ≤ t + 1 := by
  have h := runs_inv hstart hrun
  obtain ⟨b', e, he, rfl⟩ := selection_mem h hsel ht
  cases hlist : (s.auths b').cache.pmksa with
  | nil =>
    rw [hlist] at he
    cases he
  | cons first next =>
    have hnow := hop.2 b' first (by rw [hlist]; rfl)
    have hsorted := (h.cache b').sorted
    rw [hlist] at he hsorted
    rcases List.mem_cons.mp he with rfl | he
    · exact hnow
    · have hle := (List.pairwise_cons.mp hsorted).1 e he
      omega

-- The RSN IE of a station that names the PMKID of its entry
def sampleIe : Octets :=
  [48, 38, 1, 0, 0, 15, 172, 4, 1, 0, 0, 15, 172, 4, 1, 0, 0, 15, 172, 1, 0, 0, 1, 0] ++
    List.replicate 16 7

def sampleOps (t : ℤ) : List (Op 1) :=
  [.staInit 0 sampleSta, .add 0 true samplePmk 1 sampleSta 1 .ieee8021x, .tick t]

def sampleLater (t : ℤ) : Sys 1 := (sampleOps t).foldl (exec .transparent) sampleSys

theorem pmksa_not_expired_sample :
    selectedExpiration <$> selection .transparent (sampleLater 2) 0 sampleSta sampleIe = some (some 1) ∧
      (sampleLater 2).now ≤ 1 + 1 := by
  have hrun : Runs (exec .transparent) (fun s op => Timely s op ∧ FirstInTime s op) sampleSys
      (sampleLater 2) := by
    refine Runs.of_list (sampleOps 2) ⟨⟨trivial, trivial⟩, ⟨trivial, trivial⟩, ⟨?_, trivial⟩, trivial⟩
    show (0 : ℤ) ≤ 2
    decide
  have hsome : (selection .transparent (sampleLater 2) 0 sampleSta sampleIe).map selectedExpiration =
      some (some 1) := by decide
  refine ⟨hsome, ?_⟩
  obtain ⟨selected, hsel, ht⟩ := Option.map_eq_some_iff.mp hsome
  have htimers : ∀ b, ((sampleLater 2).auths b).cache.expireTimer = none := by decide
  have hheads : ∀ b, ((sampleLater 2).auths b).cache.pmksa.head?.map Entry.expiration = some 1 := by
    decide
  have hnow : (sampleLater 2).now = 2 := by decide
  refine pmksa_not_expired sampleSys_initial hrun 0 sampleSta sampleIe true true ⟨?_, ?_⟩ selected hsel
    1 ht
  · intro b t hb
    rw [htimers b] at hb
    cases hb
  · intro b e he
    have hexp := hheads b
    rw [he] at hexp
    have heq : e.expiration = 1 := Option.some.inj hexp
    rw [hnow, heq]
    decide

theorem pmksa_expired_used :
    Runs (exec Crypto.transparent) Timely sampleSys (sampleLater 1000) ∧
      Timely (sampleLater 1000) (.validate 0 sampleSta sampleIe true true) ∧
      selection .transparent (sampleLater 1000) 0 sampleSta sampleIe =
        some (.cached (newEntry 0 .transparent 2 samplePmk 1 sampleSta 1 .ieee8021x)) ∧
      (newEntry 0 .transparent 2 samplePmk 1 sampleSta 1 .ieee8021x).expiration = 1 ∧
      (sampleLater 1000).now = 1000 := by
  have hrun : Runs (exec .transparent) Timely sampleSys (sampleLater 1000) := by
    refine Runs.of_list (sampleOps 1000) ⟨trivial, trivial, ?_, trivial⟩
    show (0 : ℤ) ≤ 1000
    decide
  refine ⟨hrun, fun b t hb => ?_, by decide, by decide, by decide⟩
  rw [pmksa_expire_timer_not_armed sampleSys_initial hrun b] at hb
  cases hb

section Opportunistic

variable {aa spa : Addr} {pmkid : BitVec 128} {l : List Entry} {e : Entry}

def okcMatch (cr : Crypto) (aa spa : Addr) (pmkid : BitVec 128) (e : Entry) : Bool :=
  e.spa = spa && cr.rsnPmkid e.pmk aa spa e.akmp.sha256 = pmkid

def OwnPrefix (cr : Crypto) (aa spa : Addr) (pmkid : BitVec 128) (l : List Entry) : Prop :=
  ∀ e ∈ l.takeWhile fun e => !okcMatch cr aa spa pmkid e, e.spa = spa

theorem okcMatch_own (hspa : e.spa = spa) :
    okcMatch cr aa spa pmkid e = decide (cr.rsnPmkid e.pmk aa spa e.akmp.sha256 = pmkid) := by
  rw [okcMatch, decide_eq_true hspa, Bool.true_and]

theorem okcMatch_foreign (hspa : e.spa ≠ spa) : okcMatch cr aa spa pmkid e = false := by
  rw [okcMatch, decide_eq_false hspa, Bool.false_and]

theorem ownPrefix_foreign (hspa : e.spa ≠ spa) : ¬ OwnPrefix cr aa spa pmkid (e :: l) := by
  intro h
  refine hspa (h e ?_)
  rw [List.takeWhile_cons_of_pos (by simp [okcMatch_foreign hspa])]
  exact List.mem_cons_self

theorem ownPrefix_match (hmatch : okcMatch cr aa spa pmkid e = true) :
    OwnPrefix cr aa spa pmkid (e :: l) := by
  intro e' he'
  rw [List.takeWhile_cons_of_neg (by simp [hmatch])] at he'
  cases he'

theorem ownPrefix_own (hspa : e.spa = spa) (hmatch : okcMatch cr aa spa pmkid e = false) :
    OwnPrefix cr aa spa pmkid (e :: l) ↔ OwnPrefix cr aa spa pmkid l := by
  rw [OwnPrefix, List.takeWhile_cons_of_pos (by simp [hmatch])]
  simp [OwnPrefix, hspa]

-- The loop stops on a list exactly where it does not come to an entry of another station, and then
-- it has found the first match.
theorem pmksaCacheGetOkc_first (cr : Crypto) (aa spa : Addr) (pmkid : BitVec 128) (l : List Entry) :
    pmksaCacheGetOkc cr aa spa pmkid l = some (l.find? (okcMatch cr aa spa pmkid)) ↔
      OwnPrefix cr aa spa pmkid l := by
  induction l with
  | nil => exact iff_of_true rfl fun e he => absurd he List.not_mem_nil
  | cons e l ih =>
    rw [pmksaCacheGetOkc]
    by_cases hspa : e.spa = spa
    · rw [if_neg (not_not_intro hspa)]
      by_cases hpmkid : cr.rsnPmkid e.pmk aa spa e.akmp.sha256 = pmkid
      · have hmatch : okcMatch cr aa spa pmkid e = true := by
          rw [okcMatch_own hspa, decide_eq_true hpmkid]
        rw [if_pos hpmkid, List.find?_cons_of_pos hmatch]
        exact iff_of_true rfl (ownPrefix_match hmatch)
      · have hmatch : okcMatch cr aa spa pmkid e = false := by
          rw [okcMatch_own hspa, decide_eq_false hpmkid]
        rw [if_neg hpmkid, List.find?_cons_of_neg (by simp [hmatch]), ownPrefix_own hspa hmatch]
        exact ih
    · rw [if_pos hspa]
      exact iff_of_false (by simp) (ownPrefix_foreign hspa)

def foreignFirst : List Entry :=
  [newEntry 0 .transparent 0 samplePmk 2 3 0 .ieee8021x, newEntry 0 .transparent 1 samplePmk 2 sampleSta 1 .ieee8021x]

theorem pmksaCacheGetOkc_stuck :
    let pmkid := Crypto.transparent.rsnPmkid samplePmk 2 sampleSta false
    pmksaCacheGetOkc .transparent 2 sampleSta pmkid foreignFirst = none ∧
      (foreignFirst.find? (okcMatch .transparent 2 sampleSta pmkid)).map Entry.spa = some sampleSta := by
  decide

end Opportunistic

end WpaSupplicant.Ap.Pmksa

import WpaSupplicant.PmksaCache.Theorems

namespace WpaSupplicant.PmksaCache

open Lib.SortedList

variable {cr : Crypto} {c c' : Cache}

-- No key is longer than `PMK_LEN`.
def KeysFit (c : Cache) : Prop := ∀ e ∈ c.pmksa, e.pmk.length ≤ pmkLen

theorem KeysFit.subset (h : KeysFit c) (hsub : c'.pmksa ⊆ c.pmksa) : KeysFit c' := fun e he => h e (hsub he)

theorem KeysFit.add (h : KeysFit c) (hrep : Rep cr c) (alloc : Option Ptr) (now : ℤ) (pmk : Octets) (aa spa : Addr)
    (networkCtx : Ptr) (akmp : KeyMgmt) :
    KeysFit (pmksaCacheAdd cr c alloc now pmk aa spa networkCtx akmp).2 := by
  by_cases hlen : pmkLen < pmk.length
  · unfold pmksaCacheAdd
    rw [if_pos hlen]
    exact h
  have hadd := pmksaCacheAdd_added hrep alloc now pmk aa spa networkCtx akmp
  generalize pmksaCacheAdd cr c alloc now pmk aa spa networkCtx akmp = r at hadd
  cases hadd with
  | refused => exact h
  | reused pos hpos => exact h
  | linked p c1 hptr hsh hroom haa =>
    intro e he
    rw [(linkEntry_spec now c1 _).1, (insertBy_perm Entry.expiration _ _).mem_iff] at he
    rcases List.mem_cons.mp he with rfl | he
    · exact not_lt.mp hlen
    · exact h e (hsh.pmksa.subset he)

theorem KeysFit.markOpportunistic (h : KeysFit c) (ptr : Ptr) (t : ℤ) : KeysFit (markOpportunistic c ptr t) := by
  intro e he
  obtain ⟨e', he', rfl⟩ := List.mem_map.mp he
  have hfit := h e' he'
  split <;> exact hfit

theorem KeysFit.getOpportunistic (h : KeysFit c) (hrep : Rep cr c) (alloc : Option Ptr) (now freed : ℤ)
    (networkCtx : Ptr) (aa : Addr) : KeysFit (pmksaCacheGetOpportunistic cr c alloc now freed networkCtx aa).2 := by
  unfold pmksaCacheGetOpportunistic
  split
  · exact h
  split
  · rename_i old hold
    have hadd := h.add hrep alloc now old.pmk aa c.ownAddr old.networkCtx old.akmp
    unfold pmksaCacheCloneEntry
    split
    · rename_i heq
      rwa [heq] at hadd
    rename_i heq
    rw [heq] at hadd
    exact hadd.markOpportunistic _ _
  · exact h

theorem exec_keysFit (op : Op) (hrep : Rep cr c) (h : KeysFit c) : KeysFit (exec cr c op) := by
  cases op with
  | add alloc now pmk aa networkCtx akmp => exact h.add hrep alloc now pmk aa _ networkCtx akmp
  | getOpportunistic alloc now freed networkCtx aa => exact h.getOpportunistic hrep alloc now freed networkCtx aa
  | setCurrent alloc now freed pmkid bssid networkCtx tryOpportunistic =>
    have hnone : Rep cr { c with curPmksa := none } := hrep.shrinks (forget_shrinks c)
    rw [exec]
    unfold pmksaCacheSetCurrent
    dsimp only
    split
    · exact h
    split
    · split
      · exact KeysFit.getOpportunistic (c := { c with curPmksa := none }) h hnone alloc now freed networkCtx _
      · exact h
    · exact h
  | flush now networkCtx => exact h.subset (pmksaCacheFlush_shrinks now c networkCtx).pmksa.subset
  | expire now => exact h.subset (pmksaCacheExpire_spec now c).1.pmksa.subset
  | reauth | abortedCached | setPmk _ | setLifetime _ => exact h

theorem reach_keysFit {ok : Cache → Op → Prop} {start : Cache} (hinit : start.Initial)
    (hreach : Reach cr ok start c) : KeysFit c := by
  induction hreach with
  | init => simp [KeysFit, hinit.1]
  | step op hc _ _ ih => exact exec_keysFit op (reach_rep hinit hc) ih

structure CloneOf (cr : Crypto) (old : Entry) (addr ownAddr : Addr) (e : Entry) : Prop where
  pmk : e.pmk = old.pmk
  akmp : e.akmp = old.akmp
  networkCtx : e.networkCtx = old.networkCtx
  expiration : e.expiration = old.expiration
  aa : e.aa = addr
  pmkid : e.pmkid = cr.rsnPmkid old.pmk addr ownAddr old.akmp.sha256
  opportunistic : e.opportunistic = true

-- When `pmksa_cache_set_current` has an entry cloned and `pmksa_cache_add` gives it a new one, the entry is still in the
-- cache then, and the new one, which becomes the current one, is its clone.
def ClonedWhileCached (cr : Crypto) (c : Cache) (alloc : Option Ptr) (now freed : ℤ) (pmkid : Option (BitVec 128))
    (bssid : Option Addr) (networkCtx : Ptr) : Prop :=
  ∀ aa old ptr added, lookupCurrent c pmkid bssid = none → bssid = some aa → networkCtx ≠ 0 →
    c.pmksa.find? (fun e => e.networkCtx = networkCtx) = some old →
    pmksaCacheAdd cr { c with curPmksa := none } alloc now old.pmk aa c.ownAddr old.networkCtx old.akmp =
      (some ptr, added) →
    old ∈ added.pmksa ∧
      (pmksaCacheSetCurrent cr c alloc now freed pmkid bssid networkCtx true).2.curPmksa = some ptr ∧
      ∃ e ∈ (pmksaCacheSetCurrent cr c alloc now freed pmkid bssid networkCtx true).2.pmksa,
        e.ptr = ptr ∧ CloneOf cr old aa c.ownAddr e

def ClonesEvicted (c : Cache) (alloc : Option Ptr) (pmkid : Option (BitVec 128)) (bssid : Option Addr)
    (networkCtx : Ptr) : Prop :=
  lookupCurrent c pmkid bssid = none ∧ bssid.isSome = true ∧ networkCtx ≠ 0 ∧ alloc.isSome = true ∧
    pmksaCacheMaxEntries ≤ c.pmksaCount ∧ c.pmksa.head?.any (fun e => e.networkCtx = networkCtx) = true

instance (c : Cache) (alloc : Option Ptr) (pmkid : Option (BitVec 128)) (bssid : Option Addr) (networkCtx : Ptr) :
    Decidable (ClonesEvicted c alloc pmkid bssid networkCtx) :=
  inferInstanceAs (Decidable (_ ∧ _ ∧ _ ∧ _ ∧ _ ∧ _))

-- The Authenticator that is asked for has no entry.
theorem lookup_none {pmkid : Option (BitVec 128)} {aa : Addr} (h : lookupCurrent c pmkid (some aa) = none) :
    c.pmksa.find? (fun e => e.aa = aa) = none := by
  rw [lookupCurrent, Option.orElse_eq_orElse, Option.orElse_eq_or, Option.or_eq_none_iff] at h
  have hget := List.find?_eq_none.mp h.2
  refine List.find?_eq_none.mpr fun e he haa => hget e he ?_
  have heq : e.aa = aa := by simpa using haa
  simp [heq]

theorem add_new (cr : Crypto) (ptr : Ptr) (now : ℤ) (old : Entry) (aa : Addr) (hlen : old.pmk.length ≤ pmkLen)
    (hfind : c.pmksa.find? (fun e => e.aa = aa) = none) :
    pmksaCacheAdd cr c (some ptr) now old.pmk aa c.ownAddr old.networkCtx old.akmp =
      (some ptr, linkEntry now (makeRoom c)
        (newEntry cr c ptr now old.pmk aa c.ownAddr old.networkCtx old.akmp)) := by
  rw [pmksaCacheAdd, if_neg (not_lt.mpr hlen)]
  simp [hfind]

-- The head of a full cache is not there any more when it is read again.
theorem clonesEvicted_fails (hrep : Rep cr c) (hkeys : KeysFit c) {alloc : Option Ptr} {now freed : ℤ}
    {pmkid : Option (BitVec 128)} {bssid : Option Addr} {networkCtx : Ptr}
    (hfresh : ∀ p ∈ alloc, ∀ e ∈ c.pmksa, e.ptr ≠ p) (h : ClonesEvicted c alloc pmkid bssid networkCtx) :
    ¬ ClonedWhileCached cr c alloc now freed pmkid bssid networkCtx := by
  obtain ⟨hlookup, hbssid, hctx, halloc, hfull, hhead⟩ := h
  obtain ⟨aa, rfl⟩ := Option.isSome_iff_exists.mp hbssid
  obtain ⟨ptr, rfl⟩ := Option.isSome_iff_exists.mp halloc
  intro hclone
  cases hlist : c.pmksa with
  | nil => simp [hlist] at hhead
  | cons old next =>
    have hnet : old.networkCtx = networkCtx := by simpa [hlist] using hhead
    have hold : old ∈ c.pmksa := hlist ▸ List.mem_cons_self
    have hadd := add_new (c := { c with curPmksa := none }) cr ptr now old aa (hkeys old hold) (lookup_none hlookup)
    obtain ⟨hmem, -⟩ := hclone aa old ptr _ hlookup rfl hctx (by simp [hlist, hnet]) hadd
    rw [(linkEntry_spec now _ _).1, (insertBy_perm Entry.expiration _ _).mem_iff, makeRoom_pmksa, staying,
      if_pos hfull, hlist] at hmem
    rcases List.mem_cons.mp hmem with hnew | hmem
    · exact hfresh ptr rfl old hold (congrArg Entry.ptr hnew)
    have hnodup := hrep.ptr
    rw [hlist, List.map_cons] at hnodup
    exact (List.nodup_cons.mp hnodup).1 (List.mem_map_of_mem hmem)

theorem cloneEntry_cloneOf (cr : Crypto) (ptr : Ptr) (now freed : ℤ) (old : Entry) (aa : Addr) (hold : old ∈ staying c)
    (hlen : old.pmk.length ≤ pmkLen) (hfind : c.pmksa.find? (fun e => e.aa = aa) = none) :
    ∃ c', pmksaCacheCloneEntry cr c (some ptr) now freed old aa = (some ptr, c') ∧
      ∃ e ∈ c'.pmksa, e.ptr = ptr ∧ CloneOf cr old aa c.ownAddr e := by
  set entry := newEntry cr c ptr now old.pmk aa c.ownAddr old.networkCtx old.akmp with hentry
  have hmem : entry ∈ (linkEntry now (makeRoom c) entry).pmksa := by
    rw [(linkEntry_spec now _ _).1, (insertBy_perm Entry.expiration _ _).mem_iff]
    exact List.mem_cons_self
  refine ⟨_, cloneEntry_new ptr now freed old aa hold (not_lt.mpr hlen) hfind, _, List.mem_map_of_mem hmem, ?_⟩
  rw [if_pos (by rw [hentry, newEntry])]
  exact ⟨rfl, rfl, rfl, rfl, rfl, rfl, rfl, rfl⟩

theorem mem_staying {old : Entry} (hold : old ∈ c.pmksa)
    (hspared : pmksaCacheMaxEntries ≤ c.pmksaCount → c.pmksa.head? ≠ some old) : old ∈ staying c := by
  rw [staying]
  split
  · rename_i hfull
    cases hlist : c.pmksa with
    | nil => simp [hlist] at hold
    | cons first next =>
      rw [hlist] at hold
      rcases List.mem_cons.mp hold with rfl | hold
      · exact absurd (by rw [hlist]; rfl) (hspared hfull)
      · exact hold
  · exact hold

theorem cloned_of_spared (hkeys : KeysFit c) {alloc : Option Ptr} {now freed : ℤ} {pmkid : Option (BitVec 128)}
    {bssid : Option Addr} {networkCtx : Ptr} (h : ¬ ClonesEvicted c alloc pmkid bssid networkCtx) :
    ClonedWhileCached cr c alloc now freed pmkid bssid networkCtx := by
  rintro aa old ptr added hlookup rfl hctx hfind hadd
  have hold : old ∈ c.pmksa := List.mem_of_find?_eq_some hfind
  have hnet : old.networkCtx = networkCtx := by simpa using List.find?_some hfind
  have hlen := hkeys old hold
  cases alloc with
  | none =>
    unfold pmksaCacheAdd at hadd
    rw [if_neg (not_lt.mpr hlen)] at hadd
    cases hadd
  | some p =>
    have hstay : old ∈ staying { c with curPmksa := none } := by
      refine mem_staying hold fun hfull hhead => h ⟨hlookup, rfl, hctx, rfl, hfull, ?_⟩
      simpa [show c.pmksa.head? = some old from hhead] using hnet
    have hnew := add_new (c := { c with curPmksa := none }) cr p now old aa hlen (lookup_none hlookup)
    obtain ⟨hptr, rfl⟩ := Prod.mk.inj (hnew.symm.trans hadd)
    obtain rfl := Option.some.inj hptr
    obtain ⟨c', hclone, hentry⟩ := cloneEntry_cloneOf cr p now freed old aa hstay hlen (lookup_none hlookup)
    have hset : pmksaCacheSetCurrent cr c (some p) now freed pmkid (some aa) networkCtx true =
        (true, { c' with curPmksa := some p }) := by
      have hlookup' : lookupCurrent { c with curPmksa := none } pmkid (some aa) = none := hlookup
      have hget : pmksaCacheGetOpportunistic cr { c with curPmksa := none } (some p) now freed networkCtx aa =
          (some p, c') := by
        unfold pmksaCacheGetOpportunistic
        rw [if_neg hctx, show ({ c with curPmksa := none } : Cache).pmksa.find? _ = some old from hfind]
        exact hclone
      unfold pmksaCacheSetCurrent
      dsimp only
      rw [hlookup']
      dsimp only
      rw [if_pos rfl, hget]
      rfl
    rw [hset]
    refine ⟨?_, rfl, hentry⟩
    rw [(linkEntry_spec now _ _).1, (insertBy_perm Entry.expiration _ _).mem_iff, makeRoom_pmksa]
    exact List.mem_cons_of_mem _ hstay

-- In any cache that can be reached, an entry is cloned while it is cached unless the clone is made in a full cache whose
-- first entry is the one to be cloned.
theorem cloned_while_cached_iff (start : Cache) (hinit : start.Initial)
    (hreach : Reach cr (fun _ _ => True) start c) (alloc : Option Ptr) (now freed : ℤ) (pmkid : Option (BitVec 128))
    (bssid : Option Addr) (networkCtx : Ptr) (hfresh : ∀ p ∈ alloc, ∀ e ∈ c.pmksa, e.ptr ≠ p) :
    ClonedWhileCached cr c alloc now freed pmkid bssid networkCtx ↔
      ¬ ClonesEvicted c alloc pmkid bssid networkCtx := by
  have hrep := reach_rep hinit hreach
  have hkeys := reach_keysFit hinit hreach
  exact ⟨fun h hevicted => clonesEvicted_fails hrep hkeys hfresh hevicted h, cloned_of_spared hkeys⟩

instance AllOk.decidable (cr : Crypto) (ok : Cache → Op → Prop) [∀ c, DecidablePred (ok c)] :
    ∀ c ops, Decidable (AllOk cr ok c ops)
  | _, [] => .isTrue trivial
  | c, op :: ops =>
    have := AllOk.decidable cr ok (exec cr c op) ops
    inferInstanceAs (Decidable (Fresh c op ∧ ok c op ∧ AllOk cr ok (exec cr c op) ops))

def sampleNetwork (count : ℕ) : List Op :=
  (List.range count).map fun i => .add (some (i + 1)) i [UInt8.ofNat i] (BitVec.ofNat 48 (i + 1)) 1 .ieee8021x

theorem cloned_while_cached_nearly_full :
    (execAll Crypto.transparent {} (sampleNetwork 31)).pmksaCount = 31 ∧
      ClonedWhileCached Crypto.transparent (execAll Crypto.transparent {} (sampleNetwork 31)) (some 40) 100 0 none
        (some 50) 1 := by
  have hreach : Reach Crypto.transparent (fun _ _ => True) {} (execAll Crypto.transparent {} (sampleNetwork 31)) :=
    Reach.init.execAll _ (by decide)
  exact ⟨by decide,
    (cloned_while_cached_iff {} ⟨rfl, rfl, rfl⟩ hreach (some 40) 100 0 none (some 50) 1 (by decide)).mpr (by decide)⟩

theorem cloned_entry_evicted :
    Reach Crypto.transparent (fun _ _ => True) {} (execAll Crypto.transparent {} (sampleNetwork 32)) ∧
      ¬ ClonedWhileCached Crypto.transparent (execAll Crypto.transparent {} (sampleNetwork 32)) (some 40) 100 0 none
        (some 50) 1 := by
  have hreach : Reach Crypto.transparent (fun _ _ => True) {} (execAll Crypto.transparent {} (sampleNetwork 32)) :=
    Reach.init.execAll _ (by decide)
  have hinit : ({} : Cache).Initial := ⟨rfl, rfl, rfl⟩
  exact ⟨hreach, clonesEvicted_fails (reach_rep hinit hreach) (reach_keysFit hinit hreach) (by decide) (by decide)⟩

end WpaSupplicant.PmksaCache

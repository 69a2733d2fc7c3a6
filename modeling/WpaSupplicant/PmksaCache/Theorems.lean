import WpaSupplicant.PmksaCache

namespace WpaSupplicant.PmksaCache

open Lib.SortedList

-- What freeing entries does: the list loses entries, the count follows the list, and the current
-- entry is either forgotten or still listed.
structure Shrinks (c c' : Cache) : Prop where
  pmksa : c'.pmksa.Sublist c.pmksa
  count : c'.pmksaCount - c'.pmksa.length = c.pmksaCount - c.pmksa.length
  cur : ∀ p, c'.curPmksa = some p →
    c.curPmksa = some p ∧ ∀ e ∈ c.pmksa, e.ptr = p → e ∈ c'.pmksa
  ownAddr : c'.ownAddr = c.ownAddr

namespace Shrinks

variable {c c' c'' : Cache}

theorem refl (c : Cache) : Shrinks c c :=
  ⟨List.Sublist.refl _, rfl, fun _ hp => ⟨hp, fun _ he _ => he⟩, rfl⟩

theorem trans (h : Shrinks c c') (h' : Shrinks c' c'') : Shrinks c c'' := by
  refine ⟨h'.pmksa.trans h.pmksa, h'.count.trans h.count, ?_, h'.ownAddr.trans h.ownAddr⟩
  intro p hp
  obtain ⟨hp', hmem'⟩ := h'.cur p hp
  obtain ⟨hp, hmem⟩ := h.cur p hp'
  exact ⟨hp, fun e he hep => hmem' e (hmem e he hep) hep⟩

end Shrinks

theorem forget_shrinks (c : Cache) : Shrinks c { c with curPmksa := none } :=
  ⟨List.Sublist.refl _, rfl, by simp, rfl⟩

theorem setExpiration_shrinks (now : ℤ) (c : Cache) :
    Shrinks c (pmksaCacheSetExpiration now c) := by
  unfold pmksaCacheSetExpiration
  split <;> exact ⟨List.Sublist.refl _, rfl, fun _ hp => ⟨hp, fun _ he _ => he⟩, rfl⟩

-- The callback changes neither the list nor the count, and it forgets the entry it is told of.
theorem wpaSmPmksaFreeCb_spec (c : Cache) (entry : Entry) (replace : Bool) :
    (wpaSmPmksaFreeCb c entry replace).pmksa = c.pmksa ∧
      (wpaSmPmksaFreeCb c entry replace).pmksaCount = c.pmksaCount ∧
      (wpaSmPmksaFreeCb c entry replace).ownAddr = c.ownAddr ∧
      ∀ p, (wpaSmPmksaFreeCb c entry replace).curPmksa = some p →
        c.curPmksa = some p ∧ p ≠ entry.ptr := by
  unfold wpaSmPmksaFreeCb
  by_cases hmatch : c.curPmksa = some entry.ptr ∨ c.pmk = entry.pmk
  · rw [if_pos hmatch]
    cases replace <;> simp [Cache.emit]
  rw [if_neg hmatch]
  push Not at hmatch
  refine ⟨rfl, rfl, rfl, fun p hp => ⟨hp, ?_⟩⟩
  rintro rfl
  exact hmatch.1 hp

theorem freeEntry_shrinks (c : Cache) (l₁ l₂ : List Entry) (entry : Entry) (replace : Bool)
    (hlist : c.pmksa = l₁ ++ entry :: l₂) :
    Shrinks c (pmksaCacheFreeEntry { c with pmksa := l₁ ++ l₂ } entry replace) := by
  unfold pmksaCacheFreeEntry
  dsimp only [Cache.emit]
  obtain ⟨hpmksa, hcount, haddr, hcur⟩ := wpaSmPmksaFreeCb_spec
    { c with pmksa := l₁ ++ l₂, out := c.out ++ [Output.removePmkid entry.aa entry.pmkid],
             pmksaCount := c.pmksaCount - 1 } entry replace
  refine ⟨?_, ?_, ?_, haddr⟩
  · rw [hpmksa, hlist]
    exact List.Sublist.append_left (List.sublist_cons_self entry l₂) l₁
  · rw [hpmksa, hcount, hlist]
    simp only [List.length_append, List.length_cons]
    push_cast
    ring
  · intro p hp
    obtain ⟨hcp, hne⟩ := hcur p hp
    refine ⟨hcp, fun e he hep => ?_⟩
    rw [hpmksa]
    rw [hlist] at he
    rcases List.mem_append.mp he with he | he
    · exact List.mem_append_left _ he
    rcases List.mem_cons.mp he with rfl | he
    · exact absurd hep.symm hne
    · exact List.mem_append_right _ he

theorem freeEntry_pmksa (c : Cache) (entry : Entry) (replace : Bool) :
    (pmksaCacheFreeEntry c entry replace).pmksa = c.pmksa := by
  unfold pmksaCacheFreeEntry
  exact (wpaSmPmksaFreeCb_spec _ entry replace).1

theorem expireEntries_spec (now : ℤ) (l : List Entry) (c : Cache) (hlist : c.pmksa = l) :
    Shrinks c (expireEntries now l c) ∧
      (expireEntries now l c).pmksa = l.dropWhile (fun e => e.expiration ≤ now) := by
  induction l generalizing c with
  | nil => exact ⟨.refl c, hlist⟩
  | cons entry next ih =>
    rw [expireEntries]
    by_cases hexp : entry.expiration ≤ now
    · obtain ⟨hsh, heq⟩ := ih (pmksaCacheFreeEntry { c with pmksa := next } entry false)
        (freeEntry_pmksa _ _ _)
      rw [if_pos hexp, List.dropWhile_cons, if_pos (by simpa using hexp)]
      exact ⟨(freeEntry_shrinks c [] next entry false hlist).trans hsh, heq⟩
    · rw [if_neg hexp, List.dropWhile_cons, if_neg (by simpa using hexp)]
      exact ⟨.refl c, hlist⟩

theorem pmksaCacheExpire_spec (now : ℤ) (c : Cache) :
    Shrinks c (pmksaCacheExpire now c) ∧
      (pmksaCacheExpire now c).pmksa = c.pmksa.dropWhile (fun e => e.expiration ≤ now) := by
  obtain ⟨hsh, heq⟩ := expireEntries_spec now c.pmksa c rfl
  have hset : (pmksaCacheExpire now c).pmksa = (expireEntries now c.pmksa c).pmksa := by
    unfold pmksaCacheExpire pmksaCacheSetExpiration
    split <;> rfl
  exact ⟨hsh.trans (setExpiration_shrinks now _), hset.trans heq⟩

theorem flushEntries_shrinks (networkCtx : Ptr) (kept l : List Entry) (c : Cache)
    (hlist : c.pmksa = kept ++ l) : Shrinks c (flushEntries networkCtx kept l c) := by
  induction l generalizing kept c with
  | nil => exact .refl c
  | cons entry next ih =>
    rw [flushEntries]
    by_cases hin : inNetwork networkCtx entry = true
    · rw [if_pos hin]
      exact (freeEntry_shrinks c kept next entry false hlist).trans
        (ih kept _ (freeEntry_pmksa _ _ _))
    · rw [if_neg hin]
      exact ih (kept ++ [entry]) c (by rw [hlist, List.append_assoc]; rfl)

theorem pmksaCacheFlush_shrinks (now : ℤ) (c : Cache) (networkCtx : Ptr) :
    Shrinks c (pmksaCacheFlush now c networkCtx) := by
  have hflush := flushEntries_shrinks networkCtx [] c.pmksa c rfl
  unfold pmksaCacheFlush
  dsimp only
  split
  · exact hflush.trans (setExpiration_shrinks now _)
  · exact hflush

theorem replaceEntry_spec (now : ℤ) (c : Cache) (pos : Entry) (networkCtx : Ptr)
    (hpos : c.pmksa.find? (fun e => e.aa = pos.aa) = some pos)
    (hdistinct : (c.pmksa.map Entry.aa).Nodup) :
    Shrinks c (replaceEntry now c pos networkCtx) ∧
      ∀ e ∈ (replaceEntry now c pos networkCtx).pmksa, e.aa ≠ pos.aa := by
  obtain ⟨-, l₁, l₂, hlist, hfirst⟩ := List.find?_eq_some_iff_append.mp hpos
  have herase : c.pmksa.eraseP (fun e => e.aa = pos.aa) = l₁ ++ l₂ := by
    rw [hlist, List.eraseP_append_right _ (by simpa using hfirst)]
    simp
  -- the current entry is forgotten here or by the callback
  obtain ⟨c1, hc1, hlist1, hsh1⟩ : ∃ c1, replaceEntry now c pos networkCtx =
      pmksaCacheFlush now (pmksaCacheFreeEntry c1 pos true) networkCtx ∧
      c1.pmksa = l₁ ++ l₂ ∧ Shrinks c (pmksaCacheFreeEntry c1 pos true) := by
    by_cases hcp : c.curPmksa = some pos.ptr
    · refine ⟨{ c with pmksa := l₁ ++ l₂, curPmksa := none }, ?_, rfl, ?_⟩
      · rw [replaceEntry, herase, if_pos hcp]
      · exact (forget_shrinks c).trans
          (freeEntry_shrinks { c with curPmksa := none } l₁ l₂ pos true hlist)
    · refine ⟨{ c with pmksa := l₁ ++ l₂ }, ?_, rfl, freeEntry_shrinks c l₁ l₂ pos true hlist⟩
      rw [replaceEntry, herase, if_neg hcp]
  have hflush := pmksaCacheFlush_shrinks now (pmksaCacheFreeEntry c1 pos true) networkCtx
  rw [hc1]
  refine ⟨hsh1.trans hflush, ?_⟩
  intro e he haa
  have hmem : e ∈ l₁ ++ l₂ := by
    rw [← hlist1, ← freeEntry_pmksa c1 pos true]
    exact hflush.pmksa.subset he
  have hnodup : ((pos :: (l₁ ++ l₂)).map Entry.aa).Nodup := by
    rw [hlist] at hdistinct
    exact (List.perm_middle.map Entry.aa).nodup_iff.mp hdistinct
  refine (List.nodup_cons.mp hnodup).1 ?_
  rw [← haa]
  exact List.mem_map_of_mem hmem

theorem makeRoom_shrinks (c : Cache) : Shrinks c (makeRoom c) := by
  unfold makeRoom
  split
  · exact .refl c
  rename_i pos next hlist
  split
  · exact freeEntry_shrinks c [] next pos false hlist
  · exact .refl c

def staying (c : Cache) : List Entry :=
  c.pmksa.drop (if pmksaCacheMaxEntries ≤ c.pmksaCount then 1 else 0)

theorem makeRoom_pmksa (c : Cache) : (makeRoom c).pmksa = staying c := by
  unfold makeRoom staying
  split
  · rename_i hlist
    simp [hlist]
  rename_i pos next hlist
  split
  · rw [freeEntry_pmksa]
    simp [hlist]
  · rfl

section Rep

variable (cr : Crypto)

structure Rep (c : Cache) : Prop where
  count : c.pmksaCount = c.pmksa.length
  bound : c.pmksaCount ≤ pmksaCacheMaxEntries
  aa : (c.pmksa.map Entry.aa).Nodup
  ptr : (c.pmksa.map Entry.ptr).Nodup
  pmkid : ∀ e ∈ c.pmksa, e.pmkid = cr.rsnPmkid e.pmk e.aa c.ownAddr e.akmp.sha256
  cur : ∀ p, c.curPmksa = some p → ∃ e ∈ c.pmksa, e.ptr = p

variable {cr} {c c' : Cache}

theorem Rep.shrinks (h : Rep cr c) (hsh : Shrinks c c') : Rep cr c' := by
  have hle : c'.pmksa.length ≤ c.pmksa.length := hsh.pmksa.length_le
  have hcount := hsh.count
  have hc := h.count
  have hb := h.bound
  refine ⟨by omega, by omega, h.aa.sublist (hsh.pmksa.map _), h.ptr.sublist (hsh.pmksa.map _),
    ?_, ?_⟩
  · intro e he
    rw [hsh.ownAddr]
    exact h.pmkid e (hsh.pmksa.subset he)
  · intro p hp
    obtain ⟨hcp, hmem⟩ := hsh.cur p hp
    obtain ⟨e, he, hep⟩ := h.cur p hcp
    exact ⟨e, hmem e he hep, hep⟩

theorem makeRoom_count (h : Rep cr c) : (makeRoom c).pmksaCount < pmksaCacheMaxEntries := by
  have hcount := (h.shrinks (makeRoom_shrinks c)).count
  have hlen : (makeRoom c).pmksa.length = (staying c).length := by rw [makeRoom_pmksa]
  have hc := h.count
  have hb := h.bound
  unfold staying at hlen
  rw [List.length_drop] at hlen
  unfold pmksaCacheMaxEntries at *
  split at hlen <;> omega

-- The new entry takes a place of its own in the list; the rest is as it was.
theorem linkEntry_spec (now : ℤ) (c : Cache) (entry : Entry) :
    (linkEntry now c entry).pmksa = insertBy Entry.expiration entry c.pmksa ∧
      (linkEntry now c entry).pmksaCount = c.pmksaCount + 1 ∧
      (linkEntry now c entry).curPmksa = c.curPmksa ∧
      (linkEntry now c entry).ownAddr = c.ownAddr := by
  unfold linkEntry pmksaCacheSetExpiration
  dsimp only [Cache.emit]
  split
  · split <;> simp_all
  · simp

theorem Rep.linkEntry (h : Rep cr c) (now : ℤ) (entry : Entry)
    (hroom : c.pmksaCount < pmksaCacheMaxEntries) (haa : ∀ e ∈ c.pmksa, e.aa ≠ entry.aa)
    (hptr : ∀ e ∈ c.pmksa, e.ptr ≠ entry.ptr)
    (hpmkid : entry.pmkid = cr.rsnPmkid entry.pmk entry.aa c.ownAddr entry.akmp.sha256) :
    Rep cr (linkEntry now c entry) := by
  obtain ⟨hpmksa, hcount, hcur, haddr⟩ := linkEntry_spec now c entry
  have hperm := insertBy_perm Entry.expiration entry c.pmksa
  have hlen := hperm.length_eq
  refine ⟨?_, ?_, ?_, ?_, ?_, ?_⟩
  · rw [hcount, hpmksa, hlen, h.count]
    simp
  · rw [hcount]
    omega
  · rw [hpmksa, (hperm.map Entry.aa).nodup_iff]
    refine List.nodup_cons.mpr ⟨?_, h.aa⟩
    intro hmem
    obtain ⟨e, he, heq⟩ := List.mem_map.mp hmem
    exact haa e he heq
  · rw [hpmksa, (hperm.map Entry.ptr).nodup_iff]
    refine List.nodup_cons.mpr ⟨?_, h.ptr⟩
    intro hmem
    obtain ⟨e, he, heq⟩ := List.mem_map.mp hmem
    exact hptr e he heq
  · intro e he
    rw [hpmksa] at he
    rw [haddr]
    rcases List.mem_cons.mp (hperm.mem_iff.1 he) with rfl | he
    · exact hpmkid
    · exact h.pmkid e he
  · intro p hp
    rw [hcur] at hp
    obtain ⟨e, he, hep⟩ := h.cur p hp
    rw [hpmksa]
    exact ⟨e, hperm.mem_iff.2 (List.mem_cons_of_mem _ he), hep⟩

-- What `pmksa_cache_add` does to a cache in good order: nothing, and `NULL` or the entry that is
-- there is returned, or a new entry is linked after some were freed.
inductive Added (cr : Crypto) (c : Cache) (ptr : Option Ptr) (now : ℤ) (pmk : Octets)
    (aa spa : Addr) (networkCtx : Ptr) (akmp : KeyMgmt) : Option Ptr × Cache → Prop where
  | refused : Added cr c ptr now pmk aa spa networkCtx akmp (none, c)
  | reused (pos : Entry) (hpos : pos ∈ c.pmksa) :
      Added cr c ptr now pmk aa spa networkCtx akmp (some pos.ptr, c)
  | linked (p : Ptr) (c1 : Cache) (hptr : ptr = some p) (hsh : Shrinks c c1)
      (hroom : c1.pmksaCount < pmksaCacheMaxEntries) (haa : ∀ e ∈ c1.pmksa, e.aa ≠ aa) :
      Added cr c ptr now pmk aa spa networkCtx akmp
        (some p, linkEntry now c1 (newEntry cr c p now pmk aa spa networkCtx akmp))

theorem pmksaCacheAdd_added (h : Rep cr c) (alloc : Option Ptr) (now : ℤ) (pmk : Octets)
    (aa spa : Addr) (networkCtx : Ptr) (akmp : KeyMgmt) :
    Added cr c alloc now pmk aa spa networkCtx akmp
      (pmksaCacheAdd cr c alloc now pmk aa spa networkCtx akmp) := by
  unfold pmksaCacheAdd
  by_cases hlen : pmkLen < pmk.length
  · rw [if_pos hlen]
    exact .refused
  rw [if_neg hlen]
  cases alloc with
  | none => exact .refused
  | some p =>
    dsimp only
    cases hfind : c.pmksa.find? fun e => e.aa = aa with
    | some pos =>
      have haa : pos.aa = aa := by simpa using List.find?_some hfind
      dsimp only
      split
      · exact .reused pos (List.mem_of_find?_eq_some hfind)
      obtain ⟨hsh, hnone⟩ := replaceEntry_spec now c pos networkCtx (by rw [haa]; exact hfind)
        h.aa
      have hroom := makeRoom_shrinks (replaceEntry now c pos networkCtx)
      refine .linked p _ rfl (hsh.trans hroom) (makeRoom_count (h.shrinks hsh)) ?_
      intro e he
      rw [← haa]
      exact hnone e (hroom.pmksa.subset he)
    | none =>
      have hroom := makeRoom_shrinks c
      refine .linked p _ rfl hroom (makeRoom_count h) ?_
      intro e he
      simpa using List.find?_eq_none.mp hfind e (hroom.pmksa.subset he)

theorem Rep.add (h : Rep cr c) (alloc : Option Ptr) (now : ℤ) (pmk : Octets) (aa : Addr)
    (networkCtx : Ptr) (akmp : KeyMgmt) (hfresh : ∀ p ∈ alloc, ∀ e ∈ c.pmksa, e.ptr ≠ p) :
    Rep cr (pmksaCacheAdd cr c alloc now pmk aa c.ownAddr networkCtx akmp).2 ∧
      ∀ p, (pmksaCacheAdd cr c alloc now pmk aa c.ownAddr networkCtx akmp).1 = some p →
        ∃ e ∈ (pmksaCacheAdd cr c alloc now pmk aa c.ownAddr networkCtx akmp).2.pmksa,
          e.ptr = p := by
  have hadd := pmksaCacheAdd_added h alloc now pmk aa c.ownAddr networkCtx akmp
  generalize pmksaCacheAdd cr c alloc now pmk aa c.ownAddr networkCtx akmp = r at hadd
  cases hadd with
  | refused => exact ⟨h, by simp⟩
  | reused pos hpos => exact ⟨h, fun p hp => ⟨pos, hpos, by simpa using hp⟩⟩
  | linked p c1 hptr hsh hroom haa =>
    have hown : c1.ownAddr = c.ownAddr := hsh.ownAddr
    refine ⟨(h.shrinks hsh).linkEntry now _ hroom haa ?_ ?_, ?_⟩
    · exact fun e he => hfresh p hptr e (hsh.pmksa.subset he)
    · rw [hown]
      rfl
    · intro q hq
      refine ⟨newEntry cr c p now pmk aa c.ownAddr networkCtx akmp, ?_, by simpa [newEntry] using hq⟩
      rw [(linkEntry_spec now c1 _).1]
      exact (insertBy_perm Entry.expiration _ c1.pmksa).mem_iff.mpr (List.mem_cons_self ..)

theorem Rep.markOpportunistic (h : Rep cr c) (ptr : Ptr) (expiration : ℤ) :
    Rep cr (markOpportunistic c ptr expiration) := by
  have hmap {β : Type} (f : Entry → β)
      (hf : ∀ e : Entry, f { e with expiration := expiration, opportunistic := true } = f e) :
      (PmksaCache.markOpportunistic c ptr expiration).pmksa.map f = c.pmksa.map f := by
    simp only [PmksaCache.markOpportunistic, List.map_map]
    refine List.map_congr_left fun e _ => ?_
    simp only [Function.comp_apply]
    split
    · exact hf e
    · rfl
  refine ⟨?_, h.bound, ?_, ?_, ?_, ?_⟩
  · have := h.count
    simpa [PmksaCache.markOpportunistic] using this
  · rw [hmap Entry.aa fun _ => rfl]
    exact h.aa
  · rw [hmap Entry.ptr fun _ => rfl]
    exact h.ptr
  · intro e he
    obtain ⟨e', he', rfl⟩ := List.mem_map.mp he
    have hid := h.pmkid e' he'
    split <;> exact hid
  · intro p hp
    obtain ⟨e, he, hep⟩ := h.cur p hp
    refine ⟨_, List.mem_map_of_mem he, ?_⟩
    split <;> exact hep

theorem Rep.getOpportunistic (h : Rep cr c) (alloc : Option Ptr) (now freed : ℤ)
    (networkCtx : Ptr) (aa : Addr) (hfresh : ∀ p ∈ alloc, ∀ e ∈ c.pmksa, e.ptr ≠ p) :
    Rep cr (pmksaCacheGetOpportunistic cr c alloc now freed networkCtx aa).2 ∧
      ∀ p, (pmksaCacheGetOpportunistic cr c alloc now freed networkCtx aa).1 = some p →
        ∃ e ∈ (pmksaCacheGetOpportunistic cr c alloc now freed networkCtx aa).2.pmksa,
          e.ptr = p := by
  unfold pmksaCacheGetOpportunistic
  split
  · exact ⟨h, by simp⟩
  split
  · rename_i old hold
    unfold pmksaCacheCloneEntry
    obtain ⟨hrep, hmem⟩ := h.add alloc now old.pmk aa old.networkCtx old.akmp hfresh
    split
    · rename_i c' heq
      rw [heq] at hrep
      exact ⟨hrep, by simp⟩
    rename_i ptr c' heq
    rw [heq] at hrep hmem
    refine ⟨hrep.markOpportunistic ptr _, ?_⟩
    intro p hp
    obtain ⟨e, he, hep⟩ := hmem p hp
    refine ⟨_, List.mem_map_of_mem he, ?_⟩
    split <;> exact hep
  · exact ⟨h, by simp⟩

theorem mem_lookupCurrent (c : Cache) (pmkid : Option (BitVec 128)) (bssid : Option Addr)
    (e : Entry) (he : lookupCurrent c pmkid bssid = some e) : e ∈ c.pmksa := by
  unfold lookupCurrent pmksaCacheGet at he
  rw [Option.orElse_eq_orElse, Option.orElse_eq_or] at he
  rcases Option.or_eq_some_iff.mp he with he | ⟨-, he⟩ <;>
    obtain ⟨_, -, he⟩ := Option.bind_eq_some_iff.mp he <;>
    exact List.mem_of_find?_eq_some he

theorem Rep.setCurrent (h : Rep cr c) (alloc : Option Ptr) (now freed : ℤ)
    (pmkid : Option (BitVec 128)) (bssid : Option Addr) (networkCtx : Ptr)
    (tryOpportunistic : Bool) (hfresh : ∀ p ∈ alloc, ∀ e ∈ c.pmksa, e.ptr ≠ p) :
    Rep cr (pmksaCacheSetCurrent cr c alloc now freed pmkid bssid networkCtx
      tryOpportunistic).2 := by
  have hnone : Rep cr { c with curPmksa := none } := h.shrinks (forget_shrinks c)
  unfold pmksaCacheSetCurrent
  dsimp only
  split
  · rename_i e he
    refine { hnone with cur := ?_ }
    intro p hp
    exact ⟨e, mem_lookupCurrent _ pmkid bssid e he, by simpa using hp⟩
  split
  · rename_i aa _
    split
    · obtain ⟨hrep, hmem⟩ := hnone.getOpportunistic alloc now freed networkCtx aa hfresh
      exact { hrep with cur := hmem }
    · exact hnone
  · exact hnone

theorem exec_rep (op : Op) (h : Rep cr c) (hfresh : Fresh c op) : Rep cr (exec cr c op) := by
  cases op with
  | add alloc now pmk aa networkCtx akmp => exact (h.add alloc now pmk aa networkCtx akmp hfresh).1
  | getOpportunistic alloc now freed networkCtx aa =>
    exact (h.getOpportunistic alloc now freed networkCtx aa hfresh).1
  | setCurrent alloc now freed pmkid bssid networkCtx tryOpportunistic =>
    exact h.setCurrent alloc now freed pmkid bssid networkCtx tryOpportunistic hfresh
  | flush now networkCtx => exact h.shrinks (pmksaCacheFlush_shrinks now c networkCtx)
  | expire now => exact h.shrinks (pmksaCacheExpire_spec now c).1
  | reauth => exact { h.shrinks (forget_shrinks c) with }
  | abortedCached => exact h.shrinks (forget_shrinks c)
  | setPmk pmk => exact { h with }
  | setLifetime seconds => exact { h with }

theorem reach_rep {ok : Cache → Op → Prop} {start : Cache} (hinit : start.Initial)
    (hreach : Reach cr ok start c) : Rep cr c := by
  induction hreach with
  | init =>
    obtain ⟨hlist, hcount, hcur⟩ := hinit
    exact ⟨by simp [hlist, hcount], by simp [hcount, pmksaCacheMaxEntries], by simp [hlist],
      by simp [hlist], by simp [hlist], by simp [hcur]⟩
  | step op _ hfresh _ ih => exact exec_rep op ih hfresh

end Rep

end WpaSupplicant.PmksaCache

namespace WpaSupplicant.PmksaCache

open Lib.SortedList

variable {cr : Crypto} {c c' : Cache}

-- In every reachable cache the count is that of the list and within the limit, the
-- Authenticators are distinct, the PMKIDs belong to their entries and the current entry is listed.
theorem cache_representation (start : Cache) (hinit : start.Initial)
    (hreach : Reach cr (fun _ _ => True) start c) :
    c.pmksaCount = c.pmksa.length ∧ c.pmksaCount ≤ 32 ∧ (c.pmksa.map Entry.aa).Nodup ∧
      (∀ e ∈ c.pmksa, e.pmkid = cr.rsnPmkid e.pmk e.aa c.ownAddr e.akmp.sha256) ∧
      ∀ p, c.curPmksa = some p → ∃ e ∈ c.pmksa, e.ptr = p := by
  have hrep := reach_rep hinit hreach
  exact ⟨hrep.count, hrep.bound, hrep.aa, hrep.pmkid, hrep.cur⟩

def execAll (cr : Crypto) : Cache → List Op → Cache
  | c, [] => c
  | c, op :: ops => execAll cr (exec cr c op) ops

-- A condition along a series of operations
def AllOk (cr : Crypto) (ok : Cache → Op → Prop) : Cache → List Op → Prop
  | _, [] => True
  | c, op :: ops => Fresh c op ∧ ok c op ∧ AllOk cr ok (exec cr c op) ops

theorem Reach.execAll {ok : Cache → Op → Prop} {start : Cache} (hreach : Reach cr ok start c)
    (ops : List Op) (hok : AllOk cr ok c ops) : Reach cr ok start (execAll cr c ops) := by
  induction ops generalizing c with
  | nil => exact hreach
  | cons op ops ih => exact ih (.step op hreach hok.1 hok.2.1) hok.2.2

def sampleAdds : List Op :=
  [.add (some 1) 0 [1] 1 1 .ieee8021x, .add (some 2) 10 [2] 2 2 .ieee8021x]

def sampleSetCurrent : Op := .setCurrent (some 3) 20 0 none (some 3) 1 true

theorem cache_representation_opportunistic :
    (execAll Crypto.transparent {} (sampleAdds ++ [sampleSetCurrent])).pmksaCount = 3 ∧
      ∀ p, (execAll Crypto.transparent {} (sampleAdds ++ [sampleSetCurrent])).curPmksa = some p →
        ∃ e ∈ (execAll Crypto.transparent {} (sampleAdds ++ [sampleSetCurrent])).pmksa,
          e.ptr = p := by
  have hreach : Reach Crypto.transparent (fun _ _ => True) {}
      (execAll Crypto.transparent {} (sampleAdds ++ [sampleSetCurrent])) := by
    refine Reach.init.execAll _ ?_
    refine ⟨?_, trivial, ?_, trivial, ?_, trivial, trivial⟩ <;> decide
  exact ⟨by decide, (cache_representation {} ⟨rfl, rfl, rfl⟩ hreach).2.2.2.2⟩

-- An opportunistic entry gets the expiration of the entry it was made from after it has been
-- placed by its own. The list stays in order if the place is also right for that expiration, and
-- the value is that of the old entry only if the old entry was not freed meanwhile.
def CloneInOrder (cr : Crypto) (c : Cache) (now : ℤ) (networkCtx : Ptr) (aa : Addr) : Prop :=
  ∀ old, c.pmksa.find? (fun e => e.networkCtx = networkCtx) = some old →
    match c.pmksa.find? fun e => e.aa = aa with
    | none =>
      old ∈ staying c ∧ ∀ e ∈ staying c,
        (e.expiration ≤ now + c.dot11RSNAConfigPMKLifetime → e.expiration ≤ old.expiration) ∧
        (now + c.dot11RSNAConfigPMKLifetime < e.expiration → old.expiration ≤ e.expiration)
    | some pos =>
      pos.pmk = old.pmk ∧ pos.pmkid = cr.rsnPmkid old.pmk aa c.ownAddr old.akmp.sha256 ∧
        ∀ l₁ l₂, c.pmksa = l₁ ++ pos :: l₂ →
          (∀ e ∈ l₁, e.expiration ≤ old.expiration) ∧ ∀ e ∈ l₂, old.expiration ≤ e.expiration

def OrderKept (cr : Crypto) (c : Cache) : Op → Prop
  | .getOpportunistic alloc now _ networkCtx aa =>
    alloc.isSome → networkCtx ≠ 0 → CloneInOrder cr c now networkCtx aa
  | .setCurrent alloc now _ pmkid bssid networkCtx tryOpportunistic =>
    alloc.isSome → networkCtx ≠ 0 → lookupCurrent c pmkid bssid = none →
      tryOpportunistic = true → ∀ aa ∈ bssid, CloneInOrder cr c now networkCtx aa
  | _ => True

theorem pmksaCacheAdd_sorted (h : Rep cr c) (hsort : SortedBy Entry.expiration c.pmksa)
    (alloc : Option Ptr) (now : ℤ) (pmk : Octets) (aa spa : Addr) (networkCtx : Ptr)
    (akmp : KeyMgmt) :
    SortedBy Entry.expiration
      (pmksaCacheAdd cr c alloc now pmk aa spa networkCtx akmp).2.pmksa := by
  have hadd := pmksaCacheAdd_added h alloc now pmk aa spa networkCtx akmp
  generalize pmksaCacheAdd cr c alloc now pmk aa spa networkCtx akmp = r at hadd
  cases hadd with
  | refused => exact hsort
  | reused pos hpos => exact hsort
  | linked p c1 hptr hsh hroom haa =>
    rw [(linkEntry_spec now c1 _).1]
    exact (hsort.of_sublist hsh.pmksa).insertBy _

theorem markOpportunistic_middle (c : Cache) (l₁ l₂ : List Entry) (entry : Entry) (t : ℤ)
    (hlist : c.pmksa = l₁ ++ entry :: l₂) (hptr : ∀ e ∈ l₁ ++ l₂, e.ptr ≠ entry.ptr) :
    (markOpportunistic c entry.ptr t).pmksa =
      l₁ ++ { entry with expiration := t, opportunistic := true } :: l₂ := by
  have hsame (l : List Entry) (hl : ∀ e ∈ l, e.ptr ≠ entry.ptr) :
      l.map (fun e => if e.ptr = entry.ptr then
        { e with expiration := t, opportunistic := true } else e) = l := by
    conv_rhs => rw [← List.map_id l]
    refine List.map_congr_left fun e he => ?_
    rw [if_neg (hl e he)]
    rfl
  simp only [markOpportunistic, hlist, List.map_append, List.map_cons, if_true]
  rw [hsame l₁ fun e he => hptr e (List.mem_append_left _ he),
    hsame l₂ fun e he => hptr e (List.mem_append_right _ he)]

theorem cloneEntry_reused (ptr : Ptr) (now freed : ℤ) (old pos : Entry) (aa : Addr)
    (hold : old ∈ c.pmksa) (hlen : ¬ pmkLen < old.pmk.length)
    (hfind : c.pmksa.find? (fun e => e.aa = aa) = some pos) (hpmk : pos.pmk = old.pmk)
    (hpmkid : pos.pmkid = cr.rsnPmkid old.pmk aa c.ownAddr old.akmp.sha256) :
    pmksaCacheCloneEntry cr c (some ptr) now freed old aa =
      (some pos.ptr, markOpportunistic c pos.ptr old.expiration) := by
  have hany : (c.pmksa.any fun e => e.ptr = old.ptr) = true :=
    List.any_eq_true.mpr ⟨old, hold, by simp⟩
  have hadd : pmksaCacheAdd cr c (some ptr) now old.pmk aa c.ownAddr old.networkCtx old.akmp =
      (some pos.ptr, c) := by
    rw [pmksaCacheAdd, if_neg hlen]
    simp [hfind, newEntry, hpmk, hpmkid]
  rw [pmksaCacheCloneEntry, hadd]
  simp only [hany, if_true]

theorem cloneEntry_new (ptr : Ptr) (now freed : ℤ) (old : Entry) (aa : Addr)
    (hold : old ∈ staying c) (hlen : ¬ pmkLen < old.pmk.length)
    (hfind : c.pmksa.find? (fun e => e.aa = aa) = none) :
    pmksaCacheCloneEntry cr c (some ptr) now freed old aa =
      (some ptr, markOpportunistic (linkEntry now (makeRoom c)
        (newEntry cr c ptr now old.pmk aa c.ownAddr old.networkCtx old.akmp)) ptr
        old.expiration) := by
  have hadd : pmksaCacheAdd cr c (some ptr) now old.pmk aa c.ownAddr old.networkCtx old.akmp =
      (some ptr, linkEntry now (makeRoom c)
        (newEntry cr c ptr now old.pmk aa c.ownAddr old.networkCtx old.akmp)) := by
    rw [pmksaCacheAdd, if_neg hlen]
    simp [hfind]
  have hany : ((linkEntry now (makeRoom c) (newEntry cr c ptr now old.pmk aa c.ownAddr
      old.networkCtx old.akmp)).pmksa.any fun e => e.ptr = old.ptr) = true := by
    refine List.any_eq_true.mpr ⟨old, ?_, by simp⟩
    rw [(linkEntry_spec now _ _).1, (insertBy_perm Entry.expiration _ _).mem_iff, makeRoom_pmksa]
    exact List.mem_cons_of_mem _ hold
  rw [pmksaCacheCloneEntry, hadd]
  simp only [hany, if_true]

theorem reused_sorted (h : Rep cr c) (hsort : SortedBy Entry.expiration c.pmksa) (pos : Entry)
    (t : ℤ) (hpos : pos ∈ c.pmksa)
    (hplace : ∀ l₁ l₂, c.pmksa = l₁ ++ pos :: l₂ →
      (∀ e ∈ l₁, e.expiration ≤ t) ∧ ∀ e ∈ l₂, t ≤ e.expiration) :
    SortedBy Entry.expiration (markOpportunistic c pos.ptr t).pmksa := by
  obtain ⟨l₁, l₂, hlist⟩ := List.append_of_mem hpos
  obtain ⟨hle, hge⟩ := hplace l₁ l₂ hlist
  have hnodup : ((pos :: (l₁ ++ l₂)).map Entry.ptr).Nodup := by
    have := h.ptr
    rw [hlist] at this
    exact (List.perm_middle.map Entry.ptr).nodup_iff.mp this
  have hptr : ∀ e ∈ l₁ ++ l₂, e.ptr ≠ pos.ptr := by
    intro e he heq
    exact (List.nodup_cons.mp hnodup).1 (heq ▸ List.mem_map_of_mem he)
  rw [markOpportunistic_middle c l₁ l₂ pos t hlist hptr]
  refine SortedBy.middle ?_ hle hge
  rw [hlist] at hsort
  exact hsort.of_sublist (List.Sublist.append_left (List.sublist_cons_self pos l₂) l₁)

-- The new entry is placed by its own expiration, and the place is right for the other one.
theorem linked_sorted (hsort : SortedBy Entry.expiration c.pmksa) (now : ℤ) (entry : Entry) (t : ℤ)
    (hptr : ∀ e ∈ c.pmksa, e.ptr ≠ entry.ptr)
    (hplace : ∀ e ∈ c.pmksa, (e.expiration ≤ entry.expiration → e.expiration ≤ t) ∧
      (entry.expiration < e.expiration → t ≤ e.expiration)) :
    SortedBy Entry.expiration
      (markOpportunistic (linkEntry now c entry) entry.ptr t).pmksa := by
  obtain ⟨l₁, l₂, hsplit, hins, hle, hlt⟩ := hsort.insertBy_split entry
  have hlink := (linkEntry_spec now c entry).1
  rw [hins] at hlink
  rw [hsplit] at hptr hplace hsort
  rw [markOpportunistic_middle _ l₁ l₂ entry t hlink hptr]
  refine SortedBy.middle hsort ?_ ?_
  · intro e he
    exact (hplace e (List.mem_append_left _ he)).1 (hle e he)
  · intro e he
    exact (hplace e (List.mem_append_right _ he)).2 (hlt e he)

theorem cloneEntry_sorted (h : Rep cr c) (hsort : SortedBy Entry.expiration c.pmksa)
    (alloc : Option Ptr) (now freed : ℤ) (networkCtx : Ptr) (aa : Addr) (old : Entry)
    (hold : c.pmksa.find? (fun e => e.networkCtx = networkCtx) = some old)
    (hfresh : ∀ p ∈ alloc, ∀ e ∈ c.pmksa, e.ptr ≠ p)
    (hclone : alloc.isSome → CloneInOrder cr c now networkCtx aa) :
    SortedBy Entry.expiration (pmksaCacheCloneEntry cr c alloc now freed old aa).2.pmksa := by
  by_cases hlen : pmkLen < old.pmk.length
  · simpa [pmksaCacheCloneEntry, pmksaCacheAdd, hlen] using hsort
  cases alloc with
  | none => simpa [pmksaCacheCloneEntry, pmksaCacheAdd, hlen] using hsort
  | some ptr =>
    have horder := hclone rfl old hold
    cases hfind : c.pmksa.find? fun e => e.aa = aa with
    | some pos =>
      rw [hfind] at horder
      obtain ⟨hpmk, hpmkid, hplace⟩ := horder
      rw [cloneEntry_reused ptr now freed old pos aa (List.mem_of_find?_eq_some hold) hlen hfind
        hpmk hpmkid]
      exact reused_sorted h hsort pos _ (List.mem_of_find?_eq_some hfind) hplace
    | none =>
      rw [hfind] at horder
      obtain ⟨hstay, hplace⟩ := horder
      have hsub : (staying c).Sublist c.pmksa := List.drop_sublist _ _
      rw [cloneEntry_new ptr now freed old aa hstay hlen hfind]
      refine linked_sorted ?_ now
        (newEntry cr c ptr now old.pmk aa c.ownAddr old.networkCtx old.akmp) _ ?_ ?_
      · rw [makeRoom_pmksa]
        exact hsort.of_sublist hsub
      · rw [makeRoom_pmksa]
        exact fun e he => hfresh ptr rfl e (hsub.subset he)
      · rw [makeRoom_pmksa]
        exact hplace

theorem getOpportunistic_sorted (h : Rep cr c) (hsort : SortedBy Entry.expiration c.pmksa)
    (alloc : Option Ptr) (now freed : ℤ) (networkCtx : Ptr) (aa : Addr)
    (hfresh : ∀ p ∈ alloc, ∀ e ∈ c.pmksa, e.ptr ≠ p)
    (hclone : alloc.isSome → networkCtx ≠ 0 → CloneInOrder cr c now networkCtx aa) :
    SortedBy Entry.expiration
      (pmksaCacheGetOpportunistic cr c alloc now freed networkCtx aa).2.pmksa := by
  unfold pmksaCacheGetOpportunistic
  by_cases hnull : networkCtx = 0
  · rw [if_pos hnull]
    exact hsort
  rw [if_neg hnull]
  cases hold : c.pmksa.find? fun e => e.networkCtx = networkCtx with
  | none => exact hsort
  | some old =>
    exact cloneEntry_sorted h hsort alloc now freed networkCtx aa old hold hfresh
      fun halloc => hclone halloc hnull

theorem setCurrent_sorted (h : Rep cr c) (hsort : SortedBy Entry.expiration c.pmksa)
    (alloc : Option Ptr) (now freed : ℤ) (pmkid : Option (BitVec 128)) (bssid : Option Addr)
    (networkCtx : Ptr) (tryOpportunistic : Bool)
    (hfresh : ∀ p ∈ alloc, ∀ e ∈ c.pmksa, e.ptr ≠ p)
    (hkept : OrderKept cr c
      (.setCurrent alloc now freed pmkid bssid networkCtx tryOpportunistic)) :
    SortedBy Entry.expiration (pmksaCacheSetCurrent cr c alloc now freed pmkid bssid networkCtx
      tryOpportunistic).2.pmksa := by
  have hnone : Rep cr { c with curPmksa := none } := h.shrinks (forget_shrinks c)
  unfold pmksaCacheSetCurrent
  dsimp only
  split
  · exact hsort
  rename_i hlookup
  cases bssid with
  | none => exact hsort
  | some aa =>
    dsimp only
    split
    · rename_i htry
      exact getOpportunistic_sorted hnone hsort alloc now freed networkCtx aa hfresh
        fun halloc hnull => hkept halloc hnull hlookup htry aa rfl
    · exact hsort

theorem exec_sorted (op : Op) (h : Rep cr c) (hsort : SortedBy Entry.expiration c.pmksa)
    (hfresh : Fresh c op) (hkept : OrderKept cr c op) :
    SortedBy Entry.expiration (exec cr c op).pmksa := by
  cases op with
  | add alloc now pmk aa networkCtx akmp =>
    exact pmksaCacheAdd_sorted h hsort alloc now pmk aa c.ownAddr networkCtx akmp
  | getOpportunistic alloc now freed networkCtx aa =>
    exact getOpportunistic_sorted h hsort alloc now freed networkCtx aa hfresh hkept
  | setCurrent alloc now freed pmkid bssid networkCtx tryOpportunistic =>
    exact setCurrent_sorted h hsort alloc now freed pmkid bssid networkCtx tryOpportunistic hfresh
      hkept
  | flush now networkCtx => exact hsort.of_sublist (pmksaCacheFlush_shrinks now c networkCtx).pmksa
  | expire now => exact hsort.of_sublist (pmksaCacheExpire_spec now c).1.pmksa
  | reauth => exact hsort
  | abortedCached => exact hsort
  | setPmk pmk => exact hsort
  | setLifetime seconds => exact hsort

-- As long as every opportunistic entry is made in order, the list is sorted by expiration and the
-- expiry run, which only looks at the head, leaves nothing that has expired.
theorem cache_expiry_order (start : Cache) (hinit : start.Initial)
    (hreach : Reach cr (OrderKept cr) start c) :
    SortedBy Entry.expiration c.pmksa ∧
      ∀ now, ∀ e ∈ (pmksaCacheExpire now c).pmksa, now < e.expiration := by
  have hsort : SortedBy Entry.expiration c.pmksa := by
    induction hreach with
    | init =>
      rw [hinit.1]
      exact List.Pairwise.nil
    | step op hc hfresh hok ih => exact exec_sorted op (reach_rep hinit hc) ih hfresh hok
  refine ⟨hsort, fun now => ?_⟩
  rw [(pmksaCacheExpire_spec now c).2]
  exact hsort.lt_of_mem_dropWhile now

def sampleInOrder : List Op :=
  [.add (some 1) 0 [1] 1 1 .ieee8021x, .getOpportunistic (some 3) 20 0 1 3,
    .add (some 4) 30 [2] 2 2 .ieee8021x]

theorem cache_expiry_order_opportunistic :
    (execAll Crypto.transparent {} sampleInOrder).pmksa.map Entry.expiration = [43200, 43200, 43230] ∧
      (pmksaCacheExpire 43200 (execAll Crypto.transparent {} sampleInOrder)).pmksa.length = 1 ∧
      ∀ e ∈ (pmksaCacheExpire 43200 (execAll Crypto.transparent {} sampleInOrder)).pmksa,
        43200 < e.expiration := by
  have hreach : Reach Crypto.transparent (OrderKept Crypto.transparent) {}
      (execAll Crypto.transparent {} sampleInOrder) := by
    refine Reach.init.execAll _ ⟨by decide, trivial, by decide, ?_, by decide, trivial, trivial⟩
    intro _ _ old hold
    have hfind : (exec Crypto.transparent {} (.add (some 1) 0 [1] 1 1 .ieee8021x)).pmksa.find?
        (fun e => e.aa = 3) = none := by decide
    have hstay : staying (exec Crypto.transparent {} (.add (some 1) 0 [1] 1 1 .ieee8021x)) =
        [newEntry Crypto.transparent {} 1 0 [1] 1 0 1 .ieee8021x] := by decide
    have hnew : (exec Crypto.transparent {} (.add (some 1) 0 [1] 1 1 .ieee8021x)).pmksa.find?
        (fun e => e.networkCtx = 1) =
        some (newEntry Crypto.transparent {} 1 0 [1] 1 0 1 .ieee8021x) := by decide
    obtain rfl : newEntry Crypto.transparent {} 1 0 [1] 1 0 1 .ieee8021x = old :=
      Option.some.inj (hnew.symm.trans hold)
    rw [hfind]
    dsimp only
    rw [hstay]
    exact ⟨by decide, by decide⟩
  exact ⟨by decide, by decide, (cache_expiry_order {} ⟨rfl, rfl, rfl⟩ hreach).2 43200⟩

def Op.time : Op → Option ℤ
  | .add _ now .. | .getOpportunistic _ now .. | .setCurrent _ now .. | .flush now _ | .expire now => some now
  | _ => none

-- With another network cached in between, the opportunistic entry ends behind an entry that
-- expires later, and outlives the expiry run.
theorem expired_entry_remains :
    (sampleAdds ++ [sampleSetCurrent]).filterMap Op.time = [0, 10, 20] ∧
      Reach Crypto.transparent (fun _ _ => True) {}
        (execAll Crypto.transparent {} (sampleAdds ++ [sampleSetCurrent])) ∧
      ¬ SortedBy Entry.expiration
        (execAll Crypto.transparent {} (sampleAdds ++ [sampleSetCurrent])).pmksa ∧
      ∃ e ∈ (pmksaCacheExpire 43205
        (execAll Crypto.transparent {} (sampleAdds ++ [sampleSetCurrent]))).pmksa, e.expiration ≤ 43205 := by
  refine ⟨rfl, Reach.init.execAll _ ⟨?_, trivial, ?_, trivial, ?_, trivial, trivial⟩, ?_, ?_⟩
  · decide
  · decide
  · decide
  · unfold SortedBy
    decide
  · decide

end WpaSupplicant.PmksaCache

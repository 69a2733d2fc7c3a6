import WpaSupplicant.PmksaCache.Opportunistic

namespace WpaSupplicant.PmksaCache

open Lib.SortedList

variable {cr : Crypto} {c c' : Cache}

def Cache.expiryTime (c : Cache) : Option ℤ := c.expireTimer.map (c.timersSet + ·)

-- It is armed while there are entries, and fires no later than one second after the earliest expiration.
def ExpiryInTime (c : Cache) : Prop :=
  c.pmksa ≠ [] → ∃ t, c.expiryTime = some t ∧ ∀ e ∈ c.pmksa, t ≤ e.expiration + 1

def FirstUnexpired (now : ℤ) (l : List Entry) : Prop := ∀ e ∈ l.head?, now ≤ e.expiration

-- A flush arms the timer for the first of the entries it leaves, if it takes any.
def FlushInTime (now : ℤ) (networkCtx : Ptr) (l : List Entry) : Prop :=
  l.any (inNetwork networkCtx) = true → FirstUnexpired now (l.filter fun e => !inNetwork networkCtx e)

-- No flush leaves an entry in front that has expired: one of the operations, or of an addition that replaces an entry.
def FlushKept (cr : Crypto) (c : Cache) : Op → Prop
  | .flush now networkCtx => FlushInTime now networkCtx c.pmksa
  | .add alloc now pmk aa networkCtx akmp =>
    alloc.isSome → pmk.length ≤ pmkLen → ∀ pos, c.pmksa.find? (fun e => e.aa = aa) = some pos →
      ¬(pos.pmk = pmk ∧ pos.pmkid = cr.rsnPmkid pmk aa c.ownAddr akmp.sha256) →
        FlushInTime now networkCtx (c.pmksa.eraseP fun e => e.aa = aa)
  | _ => True

-- The opportunistic entries are made in order too.
def TimerKept (cr : Crypto) (c : Cache) (op : Op) : Prop := OrderKept cr c op ∧ FlushKept cr c op

theorem bmod_seconds (x : ℤ) : x.bmod (2 ^ 32) =
    if x % 4294967296 < 2147483648 then x % 4294967296 else x % 4294967296 - 4294967296 := by
  rw [Int.bmod_def]
  norm_num

theorem secondsUntil_le {time now : ℤ} (h : now ≤ time) : secondsUntil time now ≤ time - now := by
  rw [secondsUntil, bmod_seconds]
  split <;> omega

theorem setExpiration_inTime (now : ℤ) (hsort : SortedBy Entry.expiration c.pmksa) (hnow : FirstUnexpired now c.pmksa) :
    ExpiryInTime (pmksaCacheSetExpiration now c) := by
  unfold pmksaCacheSetExpiration
  split
  · rename_i hnil
    exact fun hne => absurd hnil hne
  rename_i first next hlist
  refine fun _ => ⟨_, rfl, fun e he => ?_⟩
  have hfirst := secondsUntil_le (hnow first (by rw [hlist]; rfl))
  have hle : first.expiration ≤ e.expiration := by
    have he' : e ∈ c.pmksa := he
    rw [hlist] at hsort he'
    rcases List.mem_cons.mp he' with rfl | he'
    · exact le_refl _
    · exact (List.pairwise_cons.mp hsort).1 e he'
  show now + (secondsUntil first.expiration now + 1) ≤ e.expiration + 1
  omega

theorem ExpiryInTime.subset (h : ExpiryInTime c) (hsub : c'.pmksa ⊆ c.pmksa) (htime : c'.expiryTime = c.expiryTime) :
    ExpiryInTime c' := by
  intro hne
  obtain ⟨e, he⟩ := List.exists_mem_of_ne_nil _ hne
  obtain ⟨t, ht, hle⟩ := h (List.ne_nil_of_mem (hsub he))
  exact ⟨t, htime.trans ht, fun e he => hle e (hsub he)⟩

theorem freeEntry_expiryTime (c : Cache) (entry : Entry) (replace : Bool) :
    (pmksaCacheFreeEntry c entry replace).expiryTime = c.expiryTime := by
  unfold pmksaCacheFreeEntry wpaSmPmksaFreeCb
  dsimp only
  split
  · cases replace <;> rfl
  · rfl

theorem flushEntries_expiryTime (networkCtx : Ptr) (kept l : List Entry) (c : Cache) :
    (flushEntries networkCtx kept l c).expiryTime = c.expiryTime := by
  induction l generalizing kept c with
  | nil => rfl
  | cons entry next ih =>
    rw [flushEntries]
    split
    · exact (ih _ _).trans (freeEntry_expiryTime _ _ _)
    · exact ih _ _

theorem flushEntries_pmksa (networkCtx : Ptr) (kept l : List Entry) (c : Cache) (hlist : c.pmksa = kept ++ l) :
    (flushEntries networkCtx kept l c).pmksa = kept ++ l.filter fun e => !inNetwork networkCtx e := by
  induction l generalizing kept c with
  | nil => exact hlist
  | cons entry next ih =>
    rw [flushEntries]
    cases hin : inNetwork networkCtx entry with
    | true =>
      rw [if_pos rfl, ih kept _ (freeEntry_pmksa _ _ _), List.filter_cons_of_neg (by simp [hin])]
    | false =>
      rw [if_neg (by simp), ih _ c (by rw [hlist, List.append_assoc, List.singleton_append]),
        List.filter_cons_of_pos (by simp [hin]), List.append_assoc, List.singleton_append]

theorem makeRoom_expiryTime (c : Cache) : (makeRoom c).expiryTime = c.expiryTime := by
  unfold makeRoom
  split
  · rfl
  split
  · exact freeEntry_expiryTime _ _ _
  · rfl

theorem flush_inTime (now : ℤ) (networkCtx : Ptr) (hsort : SortedBy Entry.expiration c.pmksa)
    (hkept : FlushInTime now networkCtx c.pmksa) (h : ExpiryInTime c) :
    ExpiryInTime (pmksaCacheFlush now c networkCtx) := by
  have hsub := (flushEntries_shrinks networkCtx [] c.pmksa c rfl).pmksa
  unfold pmksaCacheFlush
  dsimp only
  split
  · rename_i hany
    refine setExpiration_inTime now (hsort.of_sublist hsub) ?_
    rw [flushEntries_pmksa networkCtx [] c.pmksa c rfl]
    exact hkept hany
  · exact h.subset hsub.subset (flushEntries_expiryTime _ _ _ _)

theorem expire_inTime (now : ℤ) (hsort : SortedBy Entry.expiration c.pmksa) :
    ExpiryInTime (pmksaCacheExpire now c) := by
  obtain ⟨hsh, hdrop⟩ := expireEntries_spec now c.pmksa c rfl
  refine setExpiration_inTime now (hsort.of_sublist hsh.pmksa) fun e he => ?_
  have hmem := List.mem_of_mem_head? he
  rw [hdrop] at hmem
  exact (hsort.lt_of_mem_dropWhile now e hmem).le

theorem replaceEntry_inTime (now : ℤ) (pos : Entry) (networkCtx : Ptr) (hsort : SortedBy Entry.expiration c.pmksa)
    (hkept : FlushInTime now networkCtx (c.pmksa.eraseP fun e => e.aa = pos.aa)) (h : ExpiryInTime c) :
    ExpiryInTime (replaceEntry now c pos networkCtx) := by
  have hsub : (c.pmksa.eraseP fun e => e.aa = pos.aa).Sublist c.pmksa := List.eraseP_sublist
  obtain ⟨c1, hc1, hlist, htime⟩ : ∃ c1, replaceEntry now c pos networkCtx =
      pmksaCacheFlush now (pmksaCacheFreeEntry c1 pos true) networkCtx ∧
      c1.pmksa = (c.pmksa.eraseP fun e => e.aa = pos.aa) ∧ c1.expiryTime = c.expiryTime := by
    unfold replaceEntry
    refine ⟨_, rfl, ?_, ?_⟩
    · dsimp only
      split <;> rfl
    · dsimp only
      split <;> rfl
  have hfree : (pmksaCacheFreeEntry c1 pos true).pmksa = c.pmksa.eraseP fun e => e.aa = pos.aa := by
    rw [freeEntry_pmksa, hlist]
  rw [← hfree] at hsub hkept
  rw [hc1]
  refine flush_inTime now networkCtx (hsort.of_sublist hsub) hkept ?_
  exact h.subset hsub.subset ((freeEntry_expiryTime _ _ _).trans htime)

theorem linkEntry_inTime (now : ℤ) (entry : Entry) (hsort : SortedBy Entry.expiration c.pmksa)
    (hentry : now ≤ entry.expiration) (h : ExpiryInTime c) : ExpiryInTime (linkEntry now c entry) := by
  have hperm := insertBy_perm Entry.expiration entry c.pmksa
  unfold linkEntry
  dsimp only
  split
  · rename_i hfirst
    have hhead : (insertBy Entry.expiration entry c.pmksa).head? = some entry := by
      cases hlist : c.pmksa with
      | nil => rfl
      | cons pos next =>
        rw [hlist] at hfirst
        rw [insertBy, if_pos (by simpa using hfirst)]
        rfl
    refine setExpiration_inTime (c := { c with pmksa := insertBy Entry.expiration entry c.pmksa }) now
      (hsort.insertBy entry) fun e he => ?_
    obtain rfl := Option.some.inj (hhead.symm.trans he)
    exact hentry
  · rename_i hfirst
    intro _
    cases hlist : c.pmksa with
    | nil => simp [hlist] at hfirst
    | cons pos next =>
      have hpos : pos.expiration ≤ entry.expiration := by simpa [hlist] using hfirst
      obtain ⟨t, ht, hle⟩ := h (by simp [hlist])
      refine ⟨t, ht, fun e he => ?_⟩
      have he' : e ∈ insertBy Entry.expiration entry c.pmksa := by
        rw [hlist]
        exact he
      rcases List.mem_cons.mp (hperm.mem_iff.1 he') with rfl | he'
      · have hfirst' := hle pos (hlist ▸ List.mem_cons_self)
        omega
      · exact hle e he'

theorem add_inTime (alloc : Option Ptr) (now : ℤ) (pmk : Octets) (aa spa : Addr) (networkCtx : Ptr) (akmp : KeyMgmt)
    (hrep : Rep cr c) (hsort : SortedBy Entry.expiration c.pmksa)
    (hkept : alloc.isSome → pmk.length ≤ pmkLen → ∀ pos, c.pmksa.find? (fun e => e.aa = aa) = some pos →
      ¬(pos.pmk = pmk ∧ pos.pmkid = cr.rsnPmkid pmk aa spa akmp.sha256) →
        FlushInTime now networkCtx (c.pmksa.eraseP fun e => e.aa = aa)) (h : ExpiryInTime c) :
    ExpiryInTime (pmksaCacheAdd cr c alloc now pmk aa spa networkCtx akmp).2 := by
  have hlink : ∀ (c1 : Cache) (ptr : Ptr), Shrinks c c1 → ExpiryInTime c1 →
      ExpiryInTime (linkEntry now (makeRoom c1) (newEntry cr c ptr now pmk aa spa networkCtx akmp)) := by
    intro c1 ptr hsh hin
    have hsub : (makeRoom c1).pmksa.Sublist c.pmksa := (makeRoom_shrinks c1).pmksa.trans hsh.pmksa
    refine linkEntry_inTime now _ (hsort.of_sublist hsub) ?_
      (hin.subset (makeRoom_shrinks c1).pmksa.subset (makeRoom_expiryTime c1))
    show now ≤ now + (c.dot11RSNAConfigPMKLifetime : ℤ)
    omega
  unfold pmksaCacheAdd
  split
  · exact h
  rename_i hlen
  cases alloc with
  | none => exact h
  | some ptr =>
    dsimp only
    cases hfind : c.pmksa.find? fun e => e.aa = aa with
    | none => exact hlink c ptr (.refl c) h
    | some pos =>
      have haa : pos.aa = aa := by simpa using List.find?_some hfind
      dsimp only
      split
      · exact h
      · rename_i hother
        obtain ⟨hsh, -⟩ := replaceEntry_spec now c pos networkCtx (by rw [haa]; exact hfind) hrep.aa
        refine hlink _ ptr hsh (replaceEntry_inTime now pos networkCtx hsort ?_ h)
        rw [haa]
        exact hkept rfl (not_lt.mp hlen) pos hfind hother

theorem markOpportunistic_inTime (ptr : Ptr) {old : Entry} (hold : old ∈ c.pmksa) (h : ExpiryInTime c) :
    ExpiryInTime (markOpportunistic c ptr old.expiration) := by
  intro _
  obtain ⟨t, ht, hle⟩ := h (List.ne_nil_of_mem hold)
  refine ⟨t, ht, fun e he => ?_⟩
  obtain ⟨e', he', rfl⟩ := List.mem_map.mp he
  split
  · exact hle old hold
  · exact hle e' he'

theorem cloneEntry_inTime (alloc : Option Ptr) (now freed : ℤ) {networkCtx : Ptr} (aa : Addr) {old : Entry}
    (hfind : c.pmksa.find? (fun e => e.networkCtx = networkCtx) = some old) (hrep : Rep cr c)
    (hsort : SortedBy Entry.expiration c.pmksa)
    (hclone : alloc.isSome → CloneInOrder cr c now networkCtx aa) (h : ExpiryInTime c) :
    ExpiryInTime (pmksaCacheCloneEntry cr c alloc now freed old aa).2 := by
  have hold : old ∈ c.pmksa := List.mem_of_find?_eq_some hfind
  by_cases hlen : pmkLen < old.pmk.length
  · simpa [pmksaCacheCloneEntry, pmksaCacheAdd, hlen] using h
  cases alloc with
  | none => simpa [pmksaCacheCloneEntry, pmksaCacheAdd, hlen] using h
  | some ptr =>
    have horder := hclone rfl old hfind
    cases hpos : c.pmksa.find? fun e => e.aa = aa with
    | some pos =>
      rw [hpos] at horder
      rw [cloneEntry_reused ptr now freed old pos aa hold hlen hpos horder.1 horder.2.1]
      exact markOpportunistic_inTime _ hold h
    | none =>
      rw [hpos] at horder
      have hadd := add_inTime (some ptr) now old.pmk aa c.ownAddr old.networkCtx old.akmp hrep hsort
        (fun _ _ pos hsome => by rw [hpos] at hsome; cases hsome) h
      rw [cloneEntry_new ptr now freed old aa horder.1 hlen hpos]
      rw [add_new cr ptr now old aa (not_lt.mp hlen) hpos] at hadd
      refine markOpportunistic_inTime _ ?_ hadd
      rw [(linkEntry_spec now _ _).1, (insertBy_perm Entry.expiration _ _).mem_iff, makeRoom_pmksa]
      exact List.mem_cons_of_mem _ horder.1

theorem getOpportunistic_inTime (alloc : Option Ptr) (now freed : ℤ) (networkCtx : Ptr) (aa : Addr) (hrep : Rep cr c)
    (hsort : SortedBy Entry.expiration c.pmksa)
    (hclone : alloc.isSome → networkCtx ≠ 0 → CloneInOrder cr c now networkCtx aa) (h : ExpiryInTime c) :
    ExpiryInTime (pmksaCacheGetOpportunistic cr c alloc now freed networkCtx aa).2 := by
  unfold pmksaCacheGetOpportunistic
  split
  · exact h
  rename_i hctx
  split
  · rename_i old hfind
    exact cloneEntry_inTime alloc now freed aa hfind hrep hsort (fun halloc => hclone halloc hctx) h
  · exact h

theorem exec_inTime (op : Op) (hrep : Rep cr c) (hsort : SortedBy Entry.expiration c.pmksa) (hkept : TimerKept cr c op)
    (h : ExpiryInTime c) : ExpiryInTime (exec cr c op) := by
  obtain ⟨horder, hflush⟩ := hkept
  cases op with
  | add alloc now pmk aa networkCtx akmp => exact add_inTime alloc now pmk aa _ networkCtx akmp hrep hsort hflush h
  | getOpportunistic alloc now freed networkCtx aa =>
    exact getOpportunistic_inTime alloc now freed networkCtx aa hrep hsort horder h
  | setCurrent alloc now freed pmkid bssid networkCtx tryOpportunistic =>
    have hnone : Rep cr { c with curPmksa := none } := hrep.shrinks (forget_shrinks c)
    rw [exec]
    unfold pmksaCacheSetCurrent
    dsimp only
    split
    · exact h
    rename_i hlookup
    split
    · rename_i aa
      split
      · rename_i htry
        exact getOpportunistic_inTime (c := { c with curPmksa := none }) alloc now freed networkCtx aa hnone hsort
          (fun halloc hctx => horder halloc hctx hlookup htry aa rfl) h
      · exact h
    · exact h
  | flush now networkCtx => exact flush_inTime now networkCtx hsort hflush h
  | expire now => exact expire_inTime now hsort
  | reauth | abortedCached | setPmk _ | setLifetime _ => exact h

theorem reach_inTime {start : Cache} (hinit : start.Initial) (hreach : Reach cr (TimerKept cr) start c) :
    SortedBy Entry.expiration c.pmksa ∧ ExpiryInTime c := by
  induction hreach with
  | init => exact ⟨by rw [hinit.1]; exact List.Pairwise.nil, fun hne => absurd hinit.1 hne⟩
  | step op hc hfresh hok ih =>
    have hrep := reach_rep hinit hc
    exact ⟨exec_sorted op hrep ih.1 hfresh hok.1, exec_inTime op hrep ih.1 hok ih.2⟩

-- The entry in use: `sm->cur_pmksa`, or the entry for `sm->bssid`
def entryInUse (c : Cache) : Option Entry :=
  match c.curPmksa with
  | some p => c.pmksa.find? fun e => e.ptr = p
  | none => pmksaCacheGet c (some c.bssid) none

def ReauthForUsed (now : ℤ) (c : Cache) : Prop :=
  ∀ e s, entryInUse c = some e → (pmksaCacheSetExpiration now c).reauthTimer = some s → s = secondsUntil e.reauthTime now

-- A time is over, or so far away that an `int` of seconds does not tell.
def Over (now time : ℤ) : Prop := (time - now).bmod (2 ^ 32) ≤ 0

def FirstAsUsed (now : ℤ) (c : Cache) : Prop :=
  ∀ first e, c.pmksa.head? = some first → entryInUse c = some e →
    (first.reauthTime - e.reauthTime) % 2 ^ 32 = 0 ∨ Over now first.reauthTime ∧ Over now e.reauthTime

theorem secondsUntil_eq_iff (now a b : ℤ) :
    secondsUntil a now = secondsUntil b now ↔ (a - b) % 2 ^ 32 = 0 ∨ Over now a ∧ Over now b := by
  simp only [secondsUntil, Over, bmod_seconds]
  split <;> split <;> omega

theorem reauthForUsed_iff (now : ℤ) (c : Cache) : ReauthForUsed now c ↔ FirstAsUsed now c := by
  cases hlist : c.pmksa with
  | nil => simp [ReauthForUsed, FirstAsUsed, pmksaCacheSetExpiration, hlist]
  | cons first next =>
    have htimer : ∀ e, entryInUse c = some e →
        (pmksaCacheSetExpiration now c).reauthTimer = some (secondsUntil first.reauthTime now) := by
      intro e he
      have hcurrent : (c.curPmksa.isSome || (pmksaCacheGet c (some c.bssid) none).isSome) = true := by
        unfold entryInUse at he
        split at he
        · rename_i p hcur
          rw [hcur]
          rfl
        · rw [he, Option.isSome_some, Bool.or_true]
      simp [pmksaCacheSetExpiration, hlist, hcurrent]
    constructor
    · intro h first' e hfirst he
      rw [hlist] at hfirst
      obtain rfl := Option.some.inj hfirst
      exact (secondsUntil_eq_iff now _ _).mp (h e _ he (htimer e he))
    · intro h e s he hs
      rw [htimer e he] at hs
      rw [← Option.some.inj hs]
      exact (secondsUntil_eq_iff now _ _).mpr (h first e (by rw [hlist]; rfl) he)

-- The expiry timeout is in time in every run whose flushes leave no entry in front that has expired and
-- whose opportunistic entries are made in order. The timeout for reauthentication is that of the entry in
-- use just when the first entry has the same one, or both are over.
theorem cache_timers (start : Cache) (hinit : start.Initial) :
    (∀ c, Reach cr (TimerKept cr) start c → ExpiryInTime c) ∧ ∀ now c, ReauthForUsed now c ↔ FirstAsUsed now c :=
  ⟨fun _ hreach => (reach_inTime hinit hreach).2, reauthForUsed_iff⟩

-- Two entries, of which the first is flushed with its network
theorem cache_timers_flush :
    ExpiryInTime (execAll Crypto.transparent {} (sampleAdds ++ [.flush 30 1])) ∧
      (execAll Crypto.transparent {} sampleAdds).expiryTime = some 43201 ∧
      (execAll Crypto.transparent {} (sampleAdds ++ [.flush 30 1])).expiryTime = some 43211 := by
  have hkept : AllOk Crypto.transparent (TimerKept Crypto.transparent) {} (sampleAdds ++ [.flush 30 1]) := by
    refine ⟨by decide, ⟨trivial, fun _ _ pos hpos => ?_⟩, by decide, ⟨trivial, fun _ _ pos hpos => ?_⟩, by decide,
      ⟨trivial, fun _ e he => ?_⟩, trivial⟩
    · cases hpos
    · have hnone : (exec Crypto.transparent {} (.add (some 1) 0 [1] 1 1 .ieee8021x)).pmksa.find?
          (fun e => e.aa = 2) = none := by decide
      rw [hnone] at hpos
      cases hpos
    · revert e
      decide
  exact ⟨(cache_timers {} ⟨rfl, rfl, rfl⟩).1 _ (Reach.init.execAll _ hkept), by decide, by decide⟩

-- An opportunistic entry behind one that expires later is forgotten by the expiry run, and the timeout for the access
-- point in use is that of the first one in the cache.
theorem timers_of_first_entry :
    (Reach Crypto.transparent (fun _ _ => True) {} (execAll Crypto.transparent {} (sampleAdds ++ [sampleSetCurrent])) ∧
      ¬ ExpiryInTime (pmksaCacheExpire 43200 (execAll Crypto.transparent {} (sampleAdds ++ [sampleSetCurrent])))) ∧
      Reach Crypto.transparent (fun _ _ => True) { bssid := 2 } (execAll Crypto.transparent { bssid := 2 } sampleAdds) ∧
      ¬ ReauthForUsed 30 (execAll Crypto.transparent { bssid := 2 } sampleAdds) := by
  constructor
  · refine ⟨Reach.init.execAll _ (by decide), fun h => ?_⟩
    have htime : (pmksaCacheExpire 43200 (execAll Crypto.transparent {} (sampleAdds ++ [sampleSetCurrent]))).expiryTime =
        some 43211 := by decide
    obtain ⟨t, ht, hle⟩ := h (by decide)
    obtain rfl := Option.some.inj (htime.symm.trans ht)
    revert hle
    decide
  · refine ⟨Reach.init.execAll _ (by decide), fun h => ?_⟩
    have hsome : (entryInUse (execAll Crypto.transparent { bssid := 2 } sampleAdds)).isSome = true := by decide
    obtain ⟨e, he⟩ := Option.isSome_iff_exists.mp hsome
    have hs := h e 30210 he (by decide)
    have hreauth : (entryInUse (execAll Crypto.transparent { bssid := 2 } sampleAdds)).map Entry.reauthTime = some 30250 := by
      decide
    rw [he] at hreauth
    rw [Option.some.inj hreauth] at hs
    revert hs
    decide

end WpaSupplicant.PmksaCache

import WpaSupplicant.Bss

namespace WpaSupplicant.Bss

open Lib.DlList

variable {t t' : Table} {p : Ptr}

-- What can happen to an entry while a loop over the table is at it: it stays, its count of missed
-- scans changes, or it is removed, and then it is not in use.
inductive Visits (t : Table) (p : Ptr) : Table → Prop where
  | keep : Visits t p t
  | miss (n : ℕ) : Visits t p (t.set p { t.heap p with scanMissCount := n })
  | drop (n : ℕ) (hfree : wpaBssInUse t p = false) :
      Visits t p (wpaBssRemove (t.set p { t.heap p with scanMissCount := n }) p)

-- A loop that visits the entries of a list in turn
inductive Sweeps : Table → List Ptr → Table → Prop where
  | nil (t : Table) : Sweeps t [] t
  | cons {t t' t'' : Table} {p : Ptr} {l : List Ptr} (hvisit : Visits t p t')
      (hrest : Sweeps t' l t'') : Sweeps t (p :: l) t''

theorem Table.set_self (t : Table) (p : Ptr) : t.set p (t.heap p) = t := by
  rw [Table.set, Function.update_eq_self]

theorem Sweeps.stop (t : Table) (l : List Ptr) : Sweeps t l t := by
  induction l with
  | nil => exact .nil t
  | cons p l ih => exact .cons .keep ih

theorem Sweeps.foldl (f : Table → Ptr → Table) (hf : ∀ t p, Visits t p (f t p)) (l : List Ptr)
    (t : Table) : Sweeps t l (l.foldl f t) := by
  induction l generalizing t with
  | nil => exact .nil t
  | cons p l ih => exact .cons (hf t p) (ih (f t p))

theorem updateEndRound_visits (info : Option ScanInfo) (t : Table) (p : Ptr) :
    Visits t p (updateEndRound info t p) := by
  unfold updateEndRound
  dsimp only
  split
  · exact .keep
  rename_i huse
  split
  · exact .keep
  generalize hn : (if (t.heap p).lastUpdateIdx < t.bssUpdateIdx % 2 ^ 32 then
    ((t.heap p).scanMissCount + 1) % 2 ^ 32 else (t.heap p).scanMissCount) = n
  split
  · exact .drop n (by simpa using huse)
  · exact .miss n

theorem flushRound_visits (t : Table) (p : Ptr) : Visits t p (flushRound t p) := by
  unfold flushRound
  split
  · exact .keep
  rename_i huse
  have hdrop := Visits.drop (t := t) (p := p) (t.heap p).scanMissCount (by simpa using huse)
  have hself : t.set p { t.heap p with scanMissCount := (t.heap p).scanMissCount } = t :=
    t.set_self p
  rwa [hself] at hdrop

theorem flushOlder_sweeps (limit : OsTime) (l : List Ptr) (t : Table) :
    Sweeps t l (flushOlder limit l t) := by
  induction l generalizing t with
  | nil => exact .nil t
  | cons p l ih =>
    rw [flushOlder]
    by_cases huse : wpaBssInUse t p = true
    · rw [if_pos huse]
      exact .cons .keep (ih t)
    have hvisit := flushRound_visits t p
    rw [flushRound, if_neg huse] at hvisit
    rw [if_neg huse]
    split
    · exact .cons hvisit (ih _)
    · exact .stop t _

theorem Visits.mem (h : Visits t p t') (q : Ptr) (hq : q ∈ t.bss) (hne : q ≠ p) : q ∈ t'.bss := by
  cases h with
  | keep => exact hq
  | miss n => exact hq
  | drop n hfree => exact (List.mem_erase_of_ne hne).mpr hq

theorem Sweeps.rule {I : Table → Prop}
    (hI : ∀ t p t', I t → p ∈ t.bss → Visits t p t' → I t') {l : List Ptr} (h : Sweeps t l t')
    (hnodup : l.Nodup) (hmem : ∀ p ∈ l, p ∈ t.bss) (ht : I t) : I t' := by
  induction h with
  | nil t => exact ht
  | @cons t t' t'' p l hvisit hrest ih =>
    obtain ⟨hp, hl⟩ := List.nodup_cons.mp hnodup
    refine ih hl ?_ (hI t p t' ht (hmem p (List.mem_cons_self ..)) hvisit)
    intro q hq
    refine hvisit.mem q (hmem q (List.mem_cons_of_mem p hq)) ?_
    rintro rfl
    exact hp hq

-- The joint invariant of the two lists, less the limit on their length
structure Shape (t : Table) : Prop where
  perm : t.bssId.Perm t.bss
  nodup : t.bss.Nodup
  num : t.numBss = t.bss.length
  keys : ∀ p ∈ t.bss, ∀ q ∈ t.bss, (t.heap p).bssid = (t.heap q).bssid →
    (t.heap p).ssid = (t.heap q).ssid → p = q
  order : t.bssUpdateIdx < 2 ^ 32 →
    t.bss.Pairwise fun p q => (t.heap p).lastUpdateIdx ≤ (t.heap q).lastUpdateIdx
  seen : t.bssUpdateIdx < 2 ^ 32 → ∀ p ∈ t.bss, (t.heap p).lastUpdateIdx ≤ t.bssUpdateIdx
  serials : t.bssId.Pairwise fun p q => (t.heap p).serial < (t.heap q).serial
  next : ∀ p ∈ t.bss, (t.heap p).serial < t.bssNextId

def Entry.core (e : Entry) : ℕ × ℕ × Addr × Octets := (e.serial, e.lastUpdateIdx, e.bssid, e.ssid)

-- Entries change where the invariant does not look.
structure Touched (t t' : Table) : Prop where
  eq : t' = { t with heap := t'.heap }
  core : ∀ p, (t'.heap p).core = (t.heap p).core

theorem Touched.refl (t : Table) : Touched t t := ⟨rfl, fun _ => rfl⟩

theorem Touched.trans {t'' : Table} (h : Touched t t') (h' : Touched t' t'') : Touched t t'' := by
  refine ⟨?_, fun p => (h'.core p).trans (h.core p)⟩
  rw [h'.eq, h.eq]

theorem Touched.set (t : Table) (p : Ptr) (e : Entry) (hcore : e.core = (t.heap p).core) :
    Touched t (t.set p e) := by
  refine ⟨rfl, fun q => ?_⟩
  by_cases hq : q = p
  · subst hq
    simpa [Table.set] using hcore
  · simp [Table.set, hq]

namespace Shape

theorem touched (h : Shape t) (htouched : Touched t t') : Shape t' := by
  have hserial (q : Ptr) : (t'.heap q).serial = (t.heap q).serial :=
    congrArg (·.1) (htouched.core q)
  have hidx (q : Ptr) : (t'.heap q).lastUpdateIdx = (t.heap q).lastUpdateIdx :=
    congrArg (·.2.1) (htouched.core q)
  have hbssid (q : Ptr) : (t'.heap q).bssid = (t.heap q).bssid :=
    congrArg (·.2.2.1) (htouched.core q)
  have hssid (q : Ptr) : (t'.heap q).ssid = (t.heap q).ssid :=
    congrArg (·.2.2.2) (htouched.core q)
  rw [htouched.eq]
  refine ⟨h.perm, h.nodup, h.num, ?_, ?_, ?_, ?_, ?_⟩
  · intro q hq r hr
    simp only [hbssid, hssid]
    exact h.keys q hq r hr
  · intro hwrap
    simp only [hidx]
    exact h.order hwrap
  · intro hwrap q hq
    simp only [hidx]
    exact h.seen hwrap q hq
  · simp only [hserial]
    exact h.serials
  · intro q hq
    simp only [hserial]
    exact h.next q hq

theorem touch (h : Shape t) (p : Ptr) (e : Entry) (hcore : e.core = (t.heap p).core) :
    Shape (t.set p e) := h.touched (.set t p e hcore)

theorem remove (h : Shape t) (hp : p ∈ t.bss) : Shape (wpaBssRemove t p) := by
  have hsub : (t.bss.erase p).Sublist t.bss := List.erase_sublist
  have hlen := List.length_erase_of_mem hp
  refine ⟨h.perm.erase p, h.nodup.sublist hsub, ?_, ?_, ?_, ?_, ?_, ?_⟩
  · have hnum := h.num
    show t.numBss - 1 = (t.bss.erase p).length
    omega
  · exact fun q hq r hr => h.keys q (hsub.subset hq) r (hsub.subset hr)
  · exact fun hwrap => (h.order hwrap).sublist hsub
  · exact fun hwrap q hq => h.seen hwrap q (hsub.subset hq)
  · exact h.serials.sublist List.erase_sublist
  · exact fun q hq => h.next q (hsub.subset hq)

theorem visits (h : Shape t) (hp : p ∈ t.bss) (hvisit : Visits t p t') : Shape t' := by
  cases hvisit with
  | keep => exact h
  | miss n => exact h.touch p _ rfl
  | drop n hfree => exact (h.touch p { t.heap p with scanMissCount := n } rfl).remove hp

theorem link (h : Shape t) (now : OsTime) (ssid : Octets) (res : ScanRes) (hfresh : p ∉ t.bss)
    (hnew : ∀ q ∈ t.bss, ¬ ((t.heap q).bssid = res.bssid ∧ (t.heap q).ssid = ssid)) :
    Shape (linkBss t p now ssid res) := by
  have hold (q : Ptr) (hq : q ∈ t.bss) :
      (linkBss t p now ssid res).heap q = t.heap q := by
    have hne : q ≠ p := fun heq => hfresh (heq ▸ hq)
    simp [linkBss, Table.set, Table.emit, hne]
  have hself : (linkBss t p now ssid res).heap p =
      { wpaBssCopyRes now { serial := t.bssNextId, lastUpdateIdx := t.bssUpdateIdx % 2 ^ 32 } res with
        ssid := ssid, ies := res.ies, beaconIes := res.beaconIes } := by
    simp [linkBss, Table.set, Table.emit]
  have hlist : (linkBss t p now ssid res).bss = t.bss ++ [p] := rfl
  have hlistId : (linkBss t p now ssid res).bssId = t.bssId ++ [p] := rfl
  have hidx : ((linkBss t p now ssid res).heap p).lastUpdateIdx = t.bssUpdateIdx % 2 ^ 32 := by
    rw [hself]
    rfl
  have hserial : ((linkBss t p now ssid res).heap p).serial = t.bssNextId := by
    rw [hself]
    rfl
  have hbssid : ((linkBss t p now ssid res).heap p).bssid = res.bssid := by
    rw [hself]
    rfl
  have hssid : ((linkBss t p now ssid res).heap p).ssid = ssid := by
    rw [hself]
  have hId (q : Ptr) (hq : q ∈ t.bssId) : q ∈ t.bss := h.perm.mem_iff.1 hq
  refine ⟨?_, ?_, ?_, ?_, ?_, ?_, ?_, ?_⟩
  · exact h.perm.append_right [p]
  · rw [hlist]
    exact h.nodup.append (List.nodup_singleton p) (by simpa using hfresh)
  · have hnum := h.num
    rw [hlist, List.length_append]
    show t.numBss + 1 = t.bss.length + 1
    omega
  · rw [hlist]
    intro q hq r hr hb hs
    rcases List.mem_append.mp hq with hqt | hqp <;> rcases List.mem_append.mp hr with hrt | hrp
    · rw [hold q hqt, hold r hrt] at hb hs
      exact h.keys q hqt r hrt hb hs
    · rw [hold q hqt, List.mem_singleton.mp hrp] at hb hs
      exact absurd ⟨hb.trans hbssid, hs.trans hssid⟩ (hnew q hqt)
    · rw [hold r hrt, List.mem_singleton.mp hqp] at hb hs
      exact absurd ⟨hb.symm.trans hbssid, hs.symm.trans hssid⟩ (hnew r hrt)
    · rw [List.mem_singleton.mp hqp, List.mem_singleton.mp hrp]
  · intro hwrap
    have hcur : t.bssUpdateIdx % 2 ^ 32 = t.bssUpdateIdx := Nat.mod_eq_of_lt hwrap
    rw [hlist]
    refine List.pairwise_append.mpr ⟨?_, List.pairwise_singleton _ _, ?_⟩
    · refine (h.order hwrap).imp_of_mem ?_
      intro q r hq hr hle
      rwa [hold q hq, hold r hr]
    · intro q hq r hr
      obtain rfl := List.mem_singleton.mp hr
      rw [hold q hq, hidx, hcur]
      exact h.seen hwrap q hq
  · intro hwrap q hq
    rw [hlist] at hq
    rcases List.mem_append.mp hq with hq | hq
    · rw [hold q hq]
      exact h.seen hwrap q hq
    obtain rfl := List.mem_singleton.mp hq
    rw [hidx]
    exact Nat.mod_le _ _
  · rw [hlistId]
    refine List.pairwise_append.mpr ⟨?_, List.pairwise_singleton _ _, ?_⟩
    · refine h.serials.imp_of_mem ?_
      intro q r hq hr hlt
      rwa [hold q (hId q hq), hold r (hId r hr)]
    · intro q hq r hr
      obtain rfl := List.mem_singleton.mp hr
      rw [hold q (hId q hq), hserial]
      exact h.next q (hId q hq)
  · intro q hq
    show ((linkBss t p now ssid res).heap q).serial < t.bssNextId + 1
    rw [hlist] at hq
    rcases List.mem_append.mp hq with hq | hq
    · rw [hold q hq]
      exact Nat.lt_succ_of_lt (h.next q hq)
    obtain rfl := List.mem_singleton.mp hq
    rw [hserial]
    exact Nat.lt_succ_self _

end Shape

theorem mem_oldest (hp : oldest t = some p) : p ∈ t.bss := by
  unfold oldest at hp
  split at hp
  · rename_i q hq
    obtain rfl := Option.some.inj hp
    exact List.mem_of_find?_eq_some hq
  · exact List.mem_of_mem_head? hp

theorem oldest_some (hne : t.bss ≠ []) : ∃ p, oldest t = some p := by
  unfold oldest
  split
  · exact ⟨_, rfl⟩
  · exact ⟨t.bss.head hne, List.head?_eq_some_head hne⟩

-- Where an entry is after an update: in its block, or in the one `os_realloc` returned
def movedTo (t : Table) (p : Ptr) (realloc : Option Ptr) (now : OsTime) (res : ScanRes) : Ptr :=
  if fits (refreshed t p now res) res then p else realloc.getD p

-- The entry at `p` is now the entry `e` at `p'`: last in the first list, at its old place in the
-- second.
structure Moved (t : Table) (p p' : Ptr) (e : Entry) (t' : Table) : Prop where
  eq : t' = { t with
    heap := t'.heap
    bss := t.bss.erase p ++ [p']
    bssId := t.bssId.map fun q => if q = p then p' else q }
  self : t'.heap p' = e
  others : ∀ q, q ≠ p → q ≠ p' → t'.heap q = t.heap q

theorem map_replace (p p' : Ptr) (l₁ l₂ : List Ptr) (hnodup : (l₁ ++ p :: l₂).Nodup) :
    (l₁ ++ p :: l₂).map (fun q => if q = p then p' else q) = l₁ ++ p' :: l₂ := by
  obtain ⟨-, hnod₂, hdisj⟩ := List.nodup_append.mp hnodup
  have hother (l : List Ptr) (hl : p ∉ l) : l.map (fun q => if q = p then p' else q) = l := by
    conv_rhs => rw [← List.map_id l]
    refine List.map_congr_left fun q hq => ?_
    have hne : q ≠ p := fun heq => hl (heq ▸ hq)
    rw [if_neg hne]
    rfl
  rw [List.map_append, List.map_cons, if_pos rfl,
    hother l₁ fun hmem => hdisj p hmem p (List.mem_cons_self ..) rfl,
    hother l₂ (List.nodup_cons.mp hnod₂).1]

theorem relink_eq_map (l : List Ptr) (hnodup : l.Nodup) (hp : p ∈ l) (p' : Ptr) :
    dlListAdd (prevOf p l) p' (dlListDel p l) = l.map fun q => if q = p then p' else q := by
  obtain ⟨l₁, l₂, rfl⟩ := List.append_of_mem hp
  rw [relink p p' l₁ l₂ hnodup, map_replace p p' l₁ l₂ hnodup]

theorem wpaBssUpdate_moved (h : Shape t) (hp : p ∈ t.bss) (realloc : Option Ptr) (now : OsTime)
    (res : ScanRes) :
    ∃ ies beaconIes, Moved t p (movedTo t p realloc now res)
      { refreshed t p now res with ies := ies, beaconIes := beaconIes }
      (wpaBssUpdate t p realloc now res) := by
  have hpId : p ∈ t.bssId := h.perm.mem_iff.2 hp
  have hnodupId : t.bssId.Nodup := h.perm.nodup_iff.mpr h.nodup
  have hplace := relink_eq_map t.bssId hnodupId hpId
  have hself : (t.bssId.map fun q => if q = p then p else q) = t.bssId := by
    obtain ⟨l₁, l₂, hsplit⟩ := List.append_of_mem hpId
    rw [hsplit] at hnodupId ⊢
    exact map_replace p p l₁ l₂ hnodupId
  unfold wpaBssUpdate movedTo
  dsimp only
  by_cases hfits : fits (refreshed t p now res) res = true
  · rw [if_pos hfits, if_pos hfits]
    refine ⟨res.ies, res.beaconIes, ?_, ?_, ?_⟩
    · rw [hself]
      rfl
    · simp [Table.set]
    · intro q hq _
      simp [Table.set, hq]
  · rw [if_neg hfits, if_neg hfits]
    cases realloc with
    | none =>
      refine ⟨(refreshed t p now res).ies, (refreshed t p now res).beaconIes, ?_, ?_, ?_⟩
      · rw [Option.getD_none, ← hplace p]
        rfl
      · simp [Table.set]
      · intro q hq _
        simp [Table.set, hq]
    | some p' =>
      refine ⟨res.ies, res.beaconIes, ?_, ?_, ?_⟩
      · rw [Option.getD_some, ← hplace p']
        rfl
      · simp [Table.set]
      · intro q hq hq'
        rw [Option.getD_some] at hq'
        simp [Table.set, hq, hq']

theorem movedTo_fresh (realloc : Option Ptr) (now : OsTime) (res : ScanRes)
    (hrealloc : ∀ q ∈ realloc, q ∈ t.bss → q = p) :
    movedTo t p realloc now res = p ∨ movedTo t p realloc now res ∉ t.bss := by
  unfold movedTo
  split
  · exact .inl rfl
  cases realloc with
  | none => exact .inl rfl
  | some p' =>
    by_cases hmem : p' ∈ t.bss
    · exact .inl (hrealloc p' rfl hmem)
    · exact .inr hmem

theorem Shape.moved (h : Shape t) (hp : p ∈ t.bss) {p' : Ptr} {e : Entry}
    (hmoved : Moved t p p' e t') (hfresh : p' = p ∨ p' ∉ t.bss)
    (hserial : e.serial = (t.heap p).serial) (hbssid : e.bssid = (t.heap p).bssid)
    (hssid : e.ssid = (t.heap p).ssid) (hidx : e.lastUpdateIdx = t.bssUpdateIdx % 2 ^ 32) :
    Shape t' := by
  have hbss : t'.bss = t.bss.erase p ++ [p'] := by
    rw [hmoved.eq]
  have hbssId : t'.bssId = t.bssId.map fun q => if q = p then p' else q := by
    rw [hmoved.eq]
  have hrest : t'.numBss = t.numBss ∧ t'.bssUpdateIdx = t.bssUpdateIdx ∧
      t'.bssNextId = t.bssNextId := by
    rw [hmoved.eq]
    exact ⟨rfl, rfl, rfl⟩
  have hp' : p' ∉ t.bss.erase p := by
    rcases hfresh with rfl | hfresh
    · exact h.nodup.not_mem_erase
    · exact fun hmem => hfresh (List.mem_of_mem_erase hmem)
  -- the entries that did not move
  have hold (q : Ptr) (hq : q ∈ t.bss.erase p) : t'.heap q = t.heap q ∧ q ∈ t.bss := by
    have hqp : q ≠ p := (h.nodup.mem_erase_iff.mp hq).1
    exact ⟨hmoved.others q hqp fun heq => hp' (heq ▸ hq), List.mem_of_mem_erase hq⟩
  have hkey (q : Ptr) (hq : q ∈ t.bss) :
      (t'.heap (if q = p then p' else q)).serial = (t.heap q).serial := by
    by_cases hqp : q = p
    · rw [if_pos hqp, hmoved.self, hserial, hqp]
    · rw [if_neg hqp, (hold q ((List.mem_erase_of_ne hqp).mpr hq)).1]
  have hsub : (t.bss.erase p).Sublist t.bss := List.erase_sublist
  have hmem (q : Ptr) (hq : q ∈ t'.bss) : q ∈ t.bss.erase p ∨ q = p' := by
    rw [hbss] at hq
    simpa using hq
  refine ⟨?_, ?_, ?_, ?_, ?_, ?_, ?_, ?_⟩
  · obtain ⟨l₁, l₂, hsplit⟩ := List.append_of_mem (h.perm.mem_iff.2 hp)
    have hnodupId : (l₁ ++ p :: l₂).Nodup := hsplit ▸ h.perm.nodup_iff.mpr h.nodup
    have herase : (l₁ ++ l₂).Perm (t.bss.erase p) := by
      have hnot : p ∉ l₁ := fun hmem =>
        (List.nodup_append.mp hnodupId).2.2 p hmem p (List.mem_cons_self ..) rfl
      have hperm := h.perm.erase p
      rw [hsplit] at hperm
      rwa [← erase_middle p l₁ l₂ hnot]
    rw [hbss, hbssId, hsplit, map_replace p p' l₁ l₂ hnodupId]
    exact List.perm_middle.trans ((herase.cons p').trans (List.perm_append_singleton p' _).symm)
  · rw [hbss]
    exact (h.nodup.sublist hsub).append (List.nodup_singleton p') (by simpa using hp')
  · have hnum := h.num
    have hlen := List.length_erase_of_mem hp
    have hpos : 0 < t.bss.length := List.length_pos_of_mem hp
    rw [hbss, hrest.1, List.length_append, List.length_singleton]
    omega
  · intro q hq r hr hb hs
    rcases hmem q hq with hq | rfl <;> rcases hmem r hr with hr | rfl
    · obtain ⟨hqe, hqt⟩ := hold q hq
      obtain ⟨hre, hrt⟩ := hold r hr
      rw [hqe, hre] at hb hs
      exact h.keys q hqt r hrt hb hs
    · obtain ⟨hqe, hqt⟩ := hold q hq
      rw [hqe, hmoved.self, hbssid] at hb
      rw [hqe, hmoved.self, hssid] at hs
      exact absurd (h.keys q hqt p hp hb hs) (h.nodup.mem_erase_iff.mp hq).1
    · obtain ⟨hre, hrt⟩ := hold r hr
      rw [hre, hmoved.self, hbssid] at hb
      rw [hre, hmoved.self, hssid] at hs
      exact absurd (h.keys r hrt p hp hb.symm hs.symm) (h.nodup.mem_erase_iff.mp hr).1
    · rfl
  · intro hwrap
    rw [hrest.2.1] at hwrap
    rw [hbss]
    refine List.pairwise_append.mpr ⟨?_, List.pairwise_singleton _ _, ?_⟩
    · refine ((h.order hwrap).sublist hsub).imp_of_mem ?_
      intro q r hq hr hle
      rwa [(hold q hq).1, (hold r hr).1]
    · intro q hq r hr
      rw [List.mem_singleton.mp hr, hmoved.self, hidx, (hold q hq).1, Nat.mod_eq_of_lt hwrap]
      exact h.seen hwrap q (hold q hq).2
  · intro hwrap q hq
    rw [hrest.2.1] at hwrap ⊢
    rcases hmem q hq with hq | rfl
    · rw [(hold q hq).1]
      exact h.seen hwrap q (hold q hq).2
    · rw [hmoved.self, hidx]
      exact Nat.mod_le _ _
  · rw [hbssId]
    refine List.pairwise_map.mpr (h.serials.imp_of_mem ?_)
    intro q r hq hr hlt
    rwa [hkey q (h.perm.mem_iff.1 hq), hkey r (h.perm.mem_iff.1 hr)]
  · intro q hq
    rw [hrest.2.2]
    rcases hmem q hq with hq | rfl
    · rw [(hold q hq).1]
      exact h.next q (hold q hq).2
    · rw [hmoved.self, hserial]
      exact h.next p hp

end WpaSupplicant.Bss

namespace WpaSupplicant.Bss

variable {t t' : Table} {p : Ptr}

theorem wpaBssGet_none {bssid : Addr} {ssid : Octets}
    (hfilter : wpaSupplicantFilterBssidMatch t bssid = true) (hget : wpaBssGet t bssid ssid = none) :
    ∀ q ∈ t.bss, ¬ ((t.heap q).bssid = bssid ∧ (t.heap q).ssid = ssid) := by
  rw [wpaBssGet, if_pos hfilter, List.find?_eq_none] at hget
  simpa using hget

theorem wpaBssGet_some {bssid : Addr} {ssid : Octets} (hget : wpaBssGet t bssid ssid = some p) :
    p ∈ t.bss ∧ (t.heap p).bssid = bssid ∧ (t.heap p).ssid = ssid := by
  unfold wpaBssGet at hget
  split at hget
  · have hfound := List.find?_some hget
    exact ⟨List.mem_of_find?_eq_some hget, by simpa using hfound⟩
  · cases hget

-- The ways a scan result changes the table
inductive Updates (t : Table) (alloc : Option Ptr) (now : OsTime) (res : ScanRes) : Table → Prop where
  | skip : Updates t alloc now res t
  | add (p : Ptr) (ssid : Octets) (hssid : resSsid res = some ssid)
      (hget : wpaBssGet t res.bssid ssid = none) (hptr : alloc = some p) (hfresh : p ∉ t.bss) :
      Updates t alloc now res (wpaBssAdd t alloc now ssid res)
  | update (p : Ptr) (ssid : Octets) (hssid : resSsid res = some ssid)
      (hget : wpaBssGet t res.bssid ssid = some p) (hrealloc : ∀ q ∈ alloc, q ∈ t.bss → q = p) :
      Updates t alloc now res (wpaBssUpdate t p alloc now res)

theorem wpaBssUpdateScanRes_updates (alloc : Option Ptr) (now : OsTime) (res : ScanRes)
    (hpromised : Promised t (.updateScanRes alloc now res)) :
    Updates t alloc now res (wpaBssUpdateScanRes t alloc now res) := by
  obtain ⟨-, hfresh⟩ := hpromised
  unfold wpaBssUpdateScanRes
  cases hssid : resSsid res with
  | none => exact .skip
  | some ssid =>
    rw [hssid] at hfresh
    dsimp only
    cases hget : wpaBssGet t res.bssid ssid with
    | none =>
      cases alloc with
      | none => exact .skip
      | some p =>
        refine .add p ssid hssid hget rfl fun hmem => ?_
        obtain ⟨ssid', hs, hp⟩ := hfresh p rfl hmem
        obtain rfl := Option.some.inj hs
        rw [hget] at hp
        cases hp
    | some p =>
      refine .update p ssid hssid hget fun q hq hmem => ?_
      obtain ⟨ssid', hs, hp⟩ := hfresh q hq hmem
      obtain rfl := Option.some.inj hs
      rw [hget] at hp
      exact (Option.some.inj hp).symm

section Invariant

structure Inv (limit : ℕ) (t : Table) : Prop extends Shape t where
  max : t.bssMaxCount = limit
  bound : t.numBss ≤ limit

variable {limit : ℕ}

theorem Inv.touched (h : Inv limit t) (htouched : Touched t t') : Inv limit t' := by
  refine ⟨h.toShape.touched htouched, ?_, ?_⟩
  · rw [htouched.eq]
    exact h.max
  · rw [htouched.eq]
    exact h.bound

theorem Inv.visits (h : Inv limit t) (hp : p ∈ t.bss) (hvisit : Visits t p t') : Inv limit t' := by
  refine ⟨h.toShape.visits hp hvisit, ?_, ?_⟩
  · cases hvisit <;> exact h.max
  · have hb := h.bound
    cases hvisit with
    | keep => exact hb
    | miss n => exact hb
    | drop n hfree =>
      show t.numBss - 1 ≤ limit
      omega

theorem Inv.sweeps (h : Inv limit t) (hsweep : Sweeps t t.bss t') : Inv limit t' :=
  hsweep.rule (fun _ _ _ => Inv.visits) h.nodup (fun _ hp => hp) h

theorem Inv.add (h : Inv limit t) (hfresh : p ∉ t.bss) (now : OsTime) (ssid : Octets)
    (res : ScanRes)
    (hnew : ∀ q ∈ t.bss, ¬ ((t.heap q).bssid = res.bssid ∧ (t.heap q).ssid = ssid)) :
    Inv limit (wpaBssAdd t (some p) now ssid res) := by
  have hlink := h.toShape.link now ssid res hfresh hnew
  have hmax : (linkBss t p now ssid res).bssMaxCount = limit := h.max
  have hnum : (linkBss t p now ssid res).numBss = t.numBss + 1 := rfl
  have hb := h.bound
  unfold wpaBssAdd
  dsimp only
  split
  · rename_i hfull
    obtain ⟨q, hq⟩ := oldest_some (t := linkBss t p now ssid res) (by
      show t.bss ++ [p] ≠ []
      simp)
    rw [wpaBssRemoveOldest, hq]
    refine ⟨hlink.remove (mem_oldest hq), hmax, ?_⟩
    show (linkBss t p now ssid res).numBss - 1 ≤ limit
    omega
  · exact ⟨hlink, hmax, by omega⟩

theorem Inv.update (h : Inv limit t) (ssid : Octets) (realloc : Option Ptr) (now : OsTime)
    (res : ScanRes) (hget : wpaBssGet t res.bssid ssid = some p)
    (hrealloc : ∀ q ∈ realloc, q ∈ t.bss → q = p) :
    Inv limit (wpaBssUpdate t p realloc now res) := by
  obtain ⟨hp, hbssid, hssid⟩ := wpaBssGet_some hget
  obtain ⟨ies, beaconIes, hmoved⟩ := wpaBssUpdate_moved h.toShape hp realloc now res
  refine ⟨h.toShape.moved hp hmoved (movedTo_fresh realloc now res hrealloc) rfl hbssid.symm rfl rfl,
    ?_, ?_⟩
  · rw [hmoved.eq]
    exact h.max
  · rw [hmoved.eq]
    exact h.bound

theorem exec_inv (op : Op) (h : Inv limit t) (hpromised : Promised t op) : Inv limit (exec t op) := by
  cases op with
  | updateStart =>
    refine ⟨⟨h.perm, h.nodup, h.num, h.keys, ?_, ?_, h.serials, h.next⟩, h.max, h.bound⟩
    · intro hwrap
      have hwrap' : t.bssUpdateIdx + 1 < 2 ^ 32 := hwrap
      exact h.order (by omega)
    · intro hwrap q hq
      have hwrap' : t.bssUpdateIdx + 1 < 2 ^ 32 := hwrap
      exact Nat.le_succ_of_le (h.seen (by omega) q hq)
  | updateScanRes alloc now res =>
    have hupd := wpaBssUpdateScanRes_updates alloc now res hpromised
    rw [exec]
    generalize wpaBssUpdateScanRes t alloc now res = t' at hupd
    cases hupd with
    | skip => exact h
    | add p ssid hssid hget hptr hfresh =>
      rw [hptr]
      exact h.add hfresh now ssid res (wpaBssGet_none hpromised.1 hget)
    | update p ssid hssid hget hrealloc => exact h.update ssid alloc now res hget hrealloc
  | updateEnd info newScan =>
    rw [exec, wpaBssUpdateEnd]
    split
    · exact h.sweeps (Sweeps.foldl _ (updateEndRound_visits info) t.bss t)
    · exact h
  | flush => exact h.sweeps (Sweeps.foldl _ flushRound_visits t.bss t)
  | flushByAge now age => exact h.sweeps (flushOlder_sweeps _ t.bss t)
  | use current bssid pendingBssid => exact { h with }
  | setFilter filter => exact { h with }
  | setNetworks ssids => exact { h with }

theorem initial_inv (hinit : t.Initial) : Inv t.bssMaxCount t := by
  obtain ⟨hbss, hid, hnum, -, -, -, -⟩ := hinit
  refine ⟨⟨?_, ?_, ?_, ?_, ?_, ?_, ?_, ?_⟩, rfl, ?_⟩ <;> simp [hbss, hid, hnum]

theorem reach_inv {ok : Table → Op → Prop} {start : Table} (hinit : start.Initial)
    (hreach : Reach ok start t) : Inv start.bssMaxCount t := by
  induction hreach with
  | init => exact initial_inv hinit
  | step op _ hpromised _ ih => exact exec_inv op ih hpromised

-- Both lists hold the same entries, as many as `num_bss` says and never more than the limit, one
-- for a BSSID and SSID; below the wrap of the counters the first list is sorted by the last
-- update and the second by the identifier; and an update keeps the place in the second list.
theorem bss_table_invariant (start : Table) (hinit : start.Initial)
    (hreach : Reach (fun _ _ => True) start t) :
    (t.bssId.Perm t.bss ∧ t.bss.Nodup) ∧
      (t.numBss = t.bss.length ∧ t.numBss ≤ start.bssMaxCount) ∧
      (∀ p ∈ t.bss, ∀ q ∈ t.bss, (t.heap p).bssid = (t.heap q).bssid →
        (t.heap p).ssid = (t.heap q).ssid → p = q) ∧
      (t.bssUpdateIdx < 2 ^ 32 →
        t.bss.Pairwise fun p q => (t.heap p).lastUpdateIdx ≤ (t.heap q).lastUpdateIdx) ∧
      (t.bssNextId ≤ 2 ^ 32 → t.bssId.Pairwise fun p q => (t.heap p).id < (t.heap q).id) ∧
      ∀ alloc now res ssid p, Promised t (.updateScanRes alloc now res) →
        resSsid res = some ssid → wpaBssGet t res.bssid ssid = some p →
        (exec t (.updateScanRes alloc now res)).bssId =
          t.bssId.map fun q => if q = p then movedTo t p alloc now res else q := by
  have hinv := reach_inv hinit hreach
  refine ⟨⟨hinv.perm, hinv.nodup⟩, ⟨hinv.num, hinv.bound⟩, hinv.keys, hinv.order, ?_, ?_⟩
  · intro hwrap
    refine hinv.serials.imp_of_mem ?_
    intro p q hp hq hlt
    have hpn := hinv.next p (hinv.perm.mem_iff.1 hp)
    have hqn := hinv.next q (hinv.perm.mem_iff.1 hq)
    rw [Entry.id, Entry.id, Nat.mod_eq_of_lt (by omega), Nat.mod_eq_of_lt (by omega)]
    exact hlt
  · intro alloc now res ssid p _ hssid hget
    obtain ⟨_, _, hmoved⟩ := wpaBssUpdate_moved hinv.toShape (wpaBssGet_some hget).1 alloc now res
    have hexec : exec t (.updateScanRes alloc now res) = wpaBssUpdate t p alloc now res := by
      simp only [exec, wpaBssUpdateScanRes, hssid, hget]
    rw [hexec, hmoved.eq]

def execAll : Table → List Op → Table
  | t, [] => t
  | t, op :: ops => execAll (exec t op) ops

-- A condition along a series of operations
def AllOk (ok : Table → Op → Prop) : Table → List Op → Prop
  | _, [] => True
  | t, op :: ops => Promised t op ∧ ok t op ∧ AllOk ok (exec t op) ops

instance AllOk.decidable (ok : Table → Op → Prop) [∀ t, DecidablePred (ok t)] :
    ∀ t ops, Decidable (AllOk ok t ops)
  | _, [] => inferInstanceAs (Decidable True)
  | t, op :: ops =>
    have := AllOk.decidable ok (exec t op) ops
    inferInstanceAs (Decidable (Promised t op ∧ ok t op ∧ AllOk ok (exec t op) ops))

theorem Reach.execAll {ok : Table → Op → Prop} {start : Table} (hreach : Reach ok start t)
    (ops : List Op) (hok : AllOk ok t ops) : Reach ok start (execAll t ops) := by
  induction ops generalizing t with
  | nil => exact hreach
  | cons op ops ih => exact ih (.step op hreach hok.1 hok.2.1) hok.2.2

-- A beacon of the network `ssid` from the address `bssid`, with `n` octets of other elements
def sampleRes (bssid : Addr) (ssid : Octets) (n : ℕ) : ScanRes :=
  { bssid := bssid, ies := [0, UInt8.ofNat ssid.length] ++ ssid ++ List.replicate n 0 }

def sampleScan : List Op :=
  [.updateStart, .updateScanRes (some 1) ⟨10, 0⟩ (sampleRes 7 [65] 0)]

def sampleThree : List Op :=
  sampleScan ++ [.updateScanRes (some 2) ⟨11, 0⟩ (sampleRes 8 [66] 0),
    .updateScanRes (some 3) ⟨12, 0⟩ (sampleRes 9 [67] 0)]

theorem bss_table_invariant_scan :
    (execAll { bssMaxCount := 2 } (sampleThree.take 3)).bss = [1, 2] ∧
      (execAll { bssMaxCount := 2 } sampleThree).bss = [2, 3] ∧
      (execAll { bssMaxCount := 2 } sampleThree).bssId.Perm (execAll { bssMaxCount := 2 } sampleThree).bss ∧
      (execAll { bssMaxCount := 2 } sampleThree).numBss ≤ 2 := by
  have hreach : Reach (fun _ _ => True) { bssMaxCount := 2 }
      (execAll { bssMaxCount := 2 } sampleThree) := Reach.init.execAll _ (by decide)
  obtain ⟨hperm, hnum, -⟩ :=
    bss_table_invariant { bssMaxCount := 2 } ⟨rfl, rfl, rfl, rfl, rfl, rfl, rfl⟩ hreach
  exact ⟨by decide, by decide, hperm.1, hnum.2⟩

end Invariant

-- The operations whose victim or whose move could hurt a BSS in use do not: a BSS that is evicted
-- is not in use, and the current BSS does not leave its block.
def InUseSpared (t : Table) : Op → Prop
  | .updateScanRes alloc now res =>
    ∀ ssid ∈ resSsid res, ∀ q ∈ alloc,
      (wpaBssGet t res.bssid ssid = none → t.bssMaxCount ≤ t.numBss →
        ∀ p ∈ oldest (linkBss t q now ssid res),
          wpaBssInUse (linkBss t q now ssid res) p = false) ∧
      ∀ p ∈ wpaBssGet t res.bssid ssid, t.currentBss = some p →
        fits (t.heap p) res = true ∨ q = p
  | _ => True

instance (t : Table) : DecidablePred (InUseSpared t)
  | .updateScanRes alloc now res =>
    inferInstanceAs (Decidable (∀ ssid ∈ resSsid res, ∀ q ∈ alloc,
      (wpaBssGet t res.bssid ssid = none → t.bssMaxCount ≤ t.numBss →
        ∀ p ∈ oldest (linkBss t q now ssid res),
          wpaBssInUse (linkBss t q now ssid res) p = false) ∧
      ∀ p ∈ wpaBssGet t res.bssid ssid, t.currentBss = some p →
        fits (t.heap p) res = true ∨ q = p))
  | .updateStart | .updateEnd .. | .flush | .flushByAge .. | .use .. | .setFilter _
  | .setNetworks _ => inferInstanceAs (Decidable True)

structure Spared (t : Table) : Prop where
  history : ∀ bssid serial, Output.bssRemoved bssid serial true ∉ t.out
  current : ∀ p, t.currentBss = some p → p ∈ t.bss
  ledger : ∀ s < t.bssNextId, (∃ p ∈ t.bss, (t.heap p).serial = s) ∨
    ∃ bssid inUse, Output.bssRemoved bssid s inUse ∈ t.out

theorem Spared.miss (h : Spared t) (p : Ptr) (n : ℕ) :
    Spared (t.set p { t.heap p with scanMissCount := n }) := by
  refine ⟨h.history, h.current, ?_⟩
  intro s hs
  rcases h.ledger s hs with ⟨q, hq, hserial⟩ | hremoved
  · refine .inl ⟨q, hq, ?_⟩
    by_cases hqp : q = p
    · subst hqp
      simpa [Table.set] using hserial
    · simpa [Table.set, hqp] using hserial
  · exact .inr hremoved

theorem Spared.remove (h : Spared t) (hfree : wpaBssInUse t p = false) :
    Spared (wpaBssRemove t p) := by
  refine ⟨?_, ?_, ?_⟩
  · intro bssid serial hmem
    rcases List.mem_append.mp hmem with hmem | hmem
    · exact h.history bssid serial hmem
    · rw [hfree] at hmem
      simp at hmem
  · intro q hq
    have hne : q ≠ p := by
      rintro rfl
      have hcur : t.currentBss = some q := hq
      simp [wpaBssInUse, hcur] at hfree
    exact (List.mem_erase_of_ne hne).mpr (h.current q hq)
  · intro s hs
    rcases h.ledger s hs with ⟨q, hq, hserial⟩ | ⟨bssid, inUse, hmem⟩
    · by_cases hqp : q = p
      · subst hqp
        refine .inr ⟨(t.heap q).bssid, wpaBssInUse t q, List.mem_append_right _ ?_⟩
        rw [← hserial]
        exact List.mem_singleton_self _
      · exact .inl ⟨q, (List.mem_erase_of_ne hqp).mpr hq, hserial⟩
    · exact .inr ⟨bssid, inUse, List.mem_append_left _ hmem⟩

theorem Spared.visits (h : Spared t) (hvisit : Visits t p t') : Spared t' := by
  cases hvisit with
  | keep => exact h
  | miss n => exact h.miss p n
  | drop n hfree =>
    have hsame : wpaBssInUse (t.set p { t.heap p with scanMissCount := n }) p =
        wpaBssInUse t p := by
      have hbssid : ((t.set p { t.heap p with scanMissCount := n }).heap p).bssid =
          (t.heap p).bssid := by simp [Table.set]
      rw [wpaBssInUse, hbssid]
      rfl
    exact (h.miss p n).remove (hsame.trans hfree)

theorem Spared.sweeps (h : Spared t) (hnodup : t.bss.Nodup) (hsweep : Sweeps t t.bss t') :
    Spared t' :=
  hsweep.rule (fun _ _ _ h _ => h.visits) hnodup (fun _ hp => hp) h

theorem Spared.link (h : Spared t) (now : OsTime) (ssid : Octets) (res : ScanRes)
    (hfresh : p ∉ t.bss) : Spared (linkBss t p now ssid res) := by
  refine ⟨?_, ?_, ?_⟩
  · intro bssid serial hmem
    rcases List.mem_append.mp hmem with hmem | hmem
    · exact h.history bssid serial hmem
    · simp at hmem
  · exact fun q hq => List.mem_append_left _ (h.current q hq)
  · intro s hs
    have hs' : s < t.bssNextId + 1 := hs
    by_cases hnew : s = t.bssNextId
    · refine .inl ⟨p, List.mem_append_right _ (List.mem_singleton_self p), ?_⟩
      simp [linkBss, Table.set, Table.emit, wpaBssCopyRes, hnew]
    rcases h.ledger s (by omega) with ⟨q, hq, hserial⟩ | ⟨bssid, inUse, hmem⟩
    · have hqp : q ≠ p := fun heq => hfresh (heq ▸ hq)
      refine .inl ⟨q, List.mem_append_left _ hq, ?_⟩
      simpa [linkBss, Table.set, Table.emit, hqp] using hserial
    · exact .inr ⟨bssid, inUse, List.mem_append_left _ hmem⟩

theorem Spared.moved (h : Spared t) {p' : Ptr} {e : Entry}
    (hmoved : Moved t p p' e t') (hserial : e.serial = (t.heap p).serial)
    (hfresh : p' = p ∨ p' ∉ t.bss) (hcurrent : t.currentBss = some p → p' = p) : Spared t' := by
  have hbss : t'.bss = t.bss.erase p ++ [p'] := by
    rw [hmoved.eq]
  refine ⟨?_, ?_, ?_⟩
  · rw [hmoved.eq]
    exact h.history
  · intro q hq
    have hcur : t.currentBss = some q := by
      rw [hmoved.eq] at hq
      exact hq
    rw [hbss]
    by_cases hqp : q = p
    · subst hqp
      rw [hcurrent hcur]
      exact List.mem_append_right _ (List.mem_singleton_self q)
    · exact List.mem_append_left _ ((List.mem_erase_of_ne hqp).mpr (h.current q hcur))
  · intro s hs
    have hs' : s < t.bssNextId := by
      rw [hmoved.eq] at hs
      exact hs
    rcases h.ledger s hs' with ⟨q, hq, hqs⟩ | hremoved
    · refine .inl ?_
      rw [hbss]
      by_cases hqp : q = p
      · refine ⟨p', List.mem_append_right _ (List.mem_singleton_self p'), ?_⟩
        rw [hmoved.self, hserial, ← hqp, hqs]
      have hqe : q ∈ t.bss.erase p := (List.mem_erase_of_ne hqp).mpr hq
      refine ⟨q, List.mem_append_left _ hqe, ?_⟩
      rw [hmoved.others q hqp ?_, hqs]
      rintro rfl
      rcases hfresh with heq | hnot
      · exact hqp heq
      · exact hnot hq
    · refine .inr ?_
      rw [hmoved.eq]
      exact hremoved

theorem Spared.updateScanRes {limit : ℕ} (h : Spared t) (hinv : Inv limit t) (alloc : Option Ptr)
    (now : OsTime) (res : ScanRes) (hpromised : Promised t (.updateScanRes alloc now res))
    (hspared : InUseSpared t (.updateScanRes alloc now res)) :
    Spared (wpaBssUpdateScanRes t alloc now res) := by
  have hupd := wpaBssUpdateScanRes_updates alloc now res hpromised
  generalize wpaBssUpdateScanRes t alloc now res = t' at hupd
  cases hupd with
  | skip => exact h
  | add p ssid hssid hget hptr hfresh =>
    subst hptr
    have hlink := h.link now ssid res hfresh
    unfold wpaBssAdd
    dsimp only
    split
    · rename_i hfull
      have hnum : t.bssMaxCount < t.numBss + 1 := hfull
      unfold wpaBssRemoveOldest
      split
      · rename_i q hq
        exact hlink.remove ((hspared ssid hssid p rfl).1 hget (by omega) q hq)
      · exact hlink
    · exact hlink
  | update p ssid hssid hget hrealloc =>
    obtain ⟨hp, -, -⟩ := wpaBssGet_some hget
    obtain ⟨_, _, hmoved⟩ := wpaBssUpdate_moved hinv.toShape hp alloc now res
    refine h.moved hmoved rfl (movedTo_fresh alloc now res hrealloc) fun hcur => ?_
    -- the current BSS: its elements fit, or the block is kept
    unfold movedTo
    split
    · rfl
    rename_i hfits
    cases alloc with
    | none => rfl
    | some q =>
      rcases (hspared ssid hssid q rfl).2 p hget hcur with hfit | hsame
      · exact absurd hfit hfits
      · exact hsame

theorem exec_spared {limit : ℕ} (op : Op) (hinv : Inv limit t) (h : Spared t)
    (hpromised : Promised t op) (hspared : InUseSpared t op) : Spared (exec t op) := by
  cases op with
  | updateStart => exact { h with }
  | updateScanRes alloc now res => exact h.updateScanRes hinv alloc now res hpromised hspared
  | updateEnd info newScan =>
    rw [exec, wpaBssUpdateEnd]
    split
    · exact h.sweeps hinv.nodup (Sweeps.foldl _ (updateEndRound_visits info) t.bss t)
    · exact h
  | flush => exact h.sweeps hinv.nodup (Sweeps.foldl _ flushRound_visits t.bss t)
  | flushByAge now age => exact h.sweeps hinv.nodup (flushOlder_sweeps _ t.bss t)
  | use current bssid pendingBssid => exact { h with current := hpromised }
  | setFilter filter => exact { h with }
  | setNetworks ssids => exact { h with }

-- While evictions and moves spare the BSSes in use, none of them is ever removed, and the current
-- BSS is an entry of the table.
theorem bss_in_use_kept (start : Table) (hinit : start.Initial)
    (hreach : Reach InUseSpared start t) :
    (∀ bssid serial, Output.bssRemoved bssid serial true ∉ t.out) ∧
      (∀ s < t.bssNextId, (∃ p ∈ t.bss, (t.heap p).serial = s) ∨
        ∃ bssid inUse, Output.bssRemoved bssid s inUse ∈ t.out) ∧
      ∀ p, t.currentBss = some p → p ∈ t.bss := by
  have hspared : Spared t := by
    induction hreach with
    | init =>
      obtain ⟨-, -, -, -, hnext, hcur, hout⟩ := hinit
      exact ⟨by simp [hout], by simp [hcur], by simp [hnext]⟩
    | step op ht hpromised hok ih => exact exec_spared op (reach_inv hinit ht) ih hpromised hok
  exact ⟨hspared.history, hspared.ledger, hspared.current⟩

def sampleUse : List Op :=
  sampleScan ++ [.use (some 1) 7 0, .updateScanRes (some 2) ⟨20, 0⟩ (sampleRes 7 [65] 0), .flush]

theorem bss_in_use_kept_update :
    (execAll {} sampleUse).currentBss = some 1 ∧ 1 ∈ (execAll {} sampleUse).bss := by
  have hreach : Reach InUseSpared {} (execAll {} sampleUse) :=
    Reach.init.execAll _ (by decide)
  have hcur : (execAll {} sampleUse).currentBss = some 1 := by decide
  exact ⟨hcur,
    (bss_in_use_kept {} ⟨rfl, rfl, rfl, rfl, rfl, rfl, rfl⟩ hreach).2.2 1 hcur⟩

def sampleEvicted : List Op :=
  sampleScan ++ [.use (some 1) 7 0, .updateScanRes (some 2) ⟨20, 0⟩ (sampleRes 8 [66] 0)]

def sampleMoved : List Op :=
  sampleScan ++ [.use (some 1) 7 0, .updateScanRes (some 2) ⟨20, 0⟩ (sampleRes 7 [65] 2)]

-- A table that is full evicts the current BSS, and an update with more elements moves it: either
-- way the pointer to it is left behind.
theorem bss_in_use_dropped :
    (Reach (fun _ _ => True) { bssMaxCount := 1 } (execAll { bssMaxCount := 1 } sampleEvicted) ∧
      Output.bssRemoved 7 0 true ∈ (execAll { bssMaxCount := 1 } sampleEvicted).out ∧
      (execAll { bssMaxCount := 1 } sampleEvicted).currentBss = some 1 ∧
      1 ∉ (execAll { bssMaxCount := 1 } sampleEvicted).bss) ∧
      Reach (fun _ _ => True) {} (execAll {} sampleMoved) ∧
      (execAll {} sampleMoved).currentBss = some 1 ∧ 1 ∉ (execAll {} sampleMoved).bss := by
  refine ⟨⟨Reach.init.execAll _ (by decide), ?_, ?_, ?_⟩, Reach.init.execAll _ (by decide), ?_, ?_⟩
  all_goals decide

end WpaSupplicant.Bss

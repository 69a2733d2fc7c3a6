import WpaSupplicant.Interworking.Lemmas
import Mathlib.Data.List.Dedup
import Mathlib.Data.List.Perm.Subperm

namespace WpaSupplicant.Interworking

open Bss GasQuery

variable {t t' : Table} {w w' : Wpa} {env : Env}

def mark (e : Entry) : ℕ × BitVec 32 × Bool := (e.serial, e.flags, e.fetched)

-- Where an entry of the table comes from after an operation on it: it is new, it is an old one
-- that kept its mark, or it was updated by a scan result, which brought its own flags.
inductive Origin (t : Table) (op : Bss.Op) (e : Entry) : Prop where
  | new (hserial : t.bssNextId ≤ e.serial)
  | old (p : Ptr) (hp : p ∈ t.bss) (hmark : mark e = mark (t.heap p))
  | updated (alloc : Option Ptr) (now : OsTime) (res : ScanRes) (ssid : Octets) (p : Ptr)
      (hop : op = .updateScanRes alloc now res) (hssid : resSsid res = some ssid)
      (hget : wpaBssGet t res.bssid ssid = some p) (hserial : e.serial = (t.heap p).serial)
      (hfetched : e.fetched = (t.heap p).fetched) (hflags : e.flags = res.flags)

def Keeps (t t' : Table) : Prop :=
  t'.bssNextId = t.bssNextId ∧
    ∀ p' ∈ t'.bss, ∃ p ∈ t.bss, mark (t'.heap p') = mark (t.heap p)

theorem Keeps.refl (t : Table) : Keeps t t := ⟨rfl, fun p hp => ⟨p, hp, rfl⟩⟩

theorem Keeps.miss (h : Keeps t t') (p : Ptr) (n : ℕ) :
    Keeps t (t'.set p { t'.heap p with scanMissCount := n }) := by
  refine ⟨h.1, fun q hq => ?_⟩
  obtain ⟨r, hr, hmark⟩ := h.2 q hq
  refine ⟨r, hr, ?_⟩
  by_cases hqp : q = p
  · subst hqp
    simpa [Table.set, mark] using hmark
  · simpa [Table.set, hqp] using hmark

theorem Keeps.remove (h : Keeps t t') (p : Ptr) : Keeps t (wpaBssRemove t' p) :=
  ⟨h.1, fun q hq => h.2 q (List.mem_of_mem_erase hq)⟩

theorem Keeps.sweeps (hnodup : t.bss.Nodup) (hsweep : Sweeps t t.bss t') : Keeps t t' := by
  refine hsweep.rule (I := Keeps t) ?_ hnodup (fun _ hp => hp) (.refl t)
  intro t1 p t2 h _ hvisit
  cases hvisit with
  | keep => exact h
  | miss n => exact h.miss p n
  | drop n hfree => exact (h.miss p n).remove p

theorem linkBss_origin (now : OsTime) (ssid : Octets) (res : ScanRes) (op : Bss.Op) {p : Ptr}
    (hfresh : p ∉ t.bss) :
    ∀ q ∈ (linkBss t p now ssid res).bss, Origin t op ((linkBss t p now ssid res).heap q) := by
  intro q hq
  have hq' : q ∈ t.bss ++ [p] := hq
  rcases List.mem_append.mp hq' with hq | hq
  · have hne : q ≠ p := fun heq => hfresh (heq ▸ hq)
    refine .old q hq ?_
    simp [linkBss, Table.set, Table.emit, hne]
  · obtain rfl := List.mem_singleton.mp hq
    refine .new ?_
    simp [linkBss, Table.set, Table.emit, wpaBssCopyRes]

theorem updateScanRes_origin (h : Shape t) (alloc : Option Ptr) (now : OsTime) (res : ScanRes)
    (hpromised : Bss.Promised t (.updateScanRes alloc now res)) :
    t.bssNextId ≤ (wpaBssUpdateScanRes t alloc now res).bssNextId ∧
      ∀ q ∈ (wpaBssUpdateScanRes t alloc now res).bss,
        Origin t (.updateScanRes alloc now res)
          ((wpaBssUpdateScanRes t alloc now res).heap q) := by
  have hupd := wpaBssUpdateScanRes_updates alloc now res hpromised
  generalize wpaBssUpdateScanRes t alloc now res = t' at hupd
  cases hupd with
  | skip => exact ⟨le_refl _, fun q hq => .old q hq rfl⟩
  | add p ssid hssid hget hptr hfresh =>
    subst hptr
    have hlink := linkBss_origin now ssid res (.updateScanRes (some p) now res) hfresh
    have hnext : t.bssNextId ≤ (linkBss t p now ssid res).bssNextId := Nat.le_succ _
    unfold wpaBssAdd
    dsimp only
    split
    · unfold wpaBssRemoveOldest
      split
      · exact ⟨hnext, fun q hq => hlink q (List.mem_of_mem_erase hq)⟩
      · exact ⟨hnext, hlink⟩
    · exact ⟨hnext, hlink⟩
  | update p ssid hssid hget hrealloc =>
    obtain ⟨hp, -, -⟩ := wpaBssGet_some hget
    obtain ⟨_, _, hmoved⟩ := wpaBssUpdate_moved h hp alloc now res
    refine ⟨?_, fun q hq => ?_⟩
    · rw [hmoved.eq]
    rw [hmoved.eq] at hq
    rcases List.mem_append.mp hq with hq | hq
    · obtain ⟨hqp, hqt⟩ := h.nodup.mem_erase_iff.mp hq
      refine .old q hqt ?_
      rw [hmoved.others q hqp]
      rintro rfl
      rcases movedTo_fresh alloc now res hrealloc with heq | hnot
      · exact hqp heq
      · exact hnot hqt
    · rw [List.mem_singleton.mp hq, hmoved.self]
      exact .updated alloc now res ssid p rfl hssid hget rfl rfl rfl

theorem exec_origin (h : Shape t) (op : Bss.Op) (hpromised : Bss.Promised t op) :
    t.bssNextId ≤ (Bss.exec t op).bssNextId ∧
      ∀ q ∈ (Bss.exec t op).bss, Origin t op ((Bss.exec t op).heap q) := by
  have hkeeps (t' : Table) (hk : Keeps t t') :
      t.bssNextId ≤ t'.bssNextId ∧ ∀ q ∈ t'.bss, Origin t op (t'.heap q) := by
    refine ⟨hk.1.ge, fun q hq => ?_⟩
    obtain ⟨p, hp, hmark⟩ := hk.2 q hq
    exact .old p hp hmark
  cases op with
  | updateStart | use current bssid pendingBssid | setFilter filter | setNetworks ssids =>
    exact hkeeps _ (.refl t)
  | updateScanRes alloc now res => exact updateScanRes_origin h alloc now res hpromised
  | updateEnd info newScan =>
    rw [Bss.exec, wpaBssUpdateEnd]
    split
    · exact hkeeps _ (.sweeps h.nodup (Sweeps.foldl _ (updateEndRound_visits info) t.bss t))
    · exact hkeeps _ (.refl t)
  | flush => exact hkeeps _ (.sweeps h.nodup (Sweeps.foldl _ flushRound_visits t.bss t))
  | flushByAge now age => exact hkeeps _ (.sweeps h.nodup (flushOlder_sweeps _ t.bss t))

structure OneQuery (w : Wpa) : Prop where
  nodup : w.queried.Nodup
  offered : ∀ s ∈ w.queried, s ∈ w.offered
  past : ∀ s ∈ w.queried, s < w.table.bssNextId
  marked : w.fetchAnqpInProgress = true → ∀ p ∈ w.table.bss,
    (w.table.heap p).serial ∈ w.queried →
      tried (w.table.heap p) = true ∨ (w.table.heap p).fetched = true

-- While a fetch is under way no scan result takes the mark from an entry that the fetch has asked
-- and not yet got an answer from.
def MarksKept (w : Wpa) : Op → Prop
  | .bss (.updateScanRes _ _ res) =>
    w.fetchAnqpInProgress = true → ∀ ssid, resSsid res = some ssid →
      ∀ p, wpaBssGet w.table res.bssid ssid = some p → tried (w.table.heap p) = true →
        (w.table.heap p).fetched = true ∨ res.flags.getLsbD 6 = true
  | _ => True

theorem OneQuery.bss (h : OneQuery w) (hshape : Shape w.table) (op : Bss.Op)
    (hpromised : Bss.Promised w.table op) (hkept : MarksKept w (.bss op)) :
    OneQuery { w with table := Bss.exec w.table op } := by
  obtain ⟨hnext, horigin⟩ := exec_origin hshape op hpromised
  refine ⟨h.nodup, h.offered, fun s hs => (h.past s hs).trans_le hnext, ?_⟩
  intro hrun q hq hserial
  cases horigin q hq with
  | new hnew => exact absurd (h.past _ hserial) (not_lt.mpr hnew)
  | old p hp hmark =>
    obtain ⟨hs, hm⟩ := Prod.mk.inj hmark
    obtain ⟨hflags, hfetched⟩ := Prod.mk.inj hm
    rw [hs] at hserial
    have hold := h.marked hrun p hp hserial
    rwa [tried, ← hflags, ← hfetched] at hold
  | updated alloc now res ssid p hop hssid hget hs hfetched hflags =>
    subst hop
    obtain ⟨hp, -, -⟩ := wpaBssGet_some hget
    rw [hs] at hserial
    rcases h.marked hrun p hp hserial with htried | hf
    · rcases hkept hrun ssid hssid p hget htried with hf | hbit
      · exact .inr (hfetched.trans hf)
      refine .inl ?_
      rw [tried, hflags]
      exact hbit
    · exact .inr (hfetched.trans hf)

theorem OneQuery.annotated (h : OneQuery w) {dst : Addr} {t' : Table} (g : Gas Cb)
    (out : List Output) (hann : Annotated dst w.table t') :
    OneQuery { w with table := t', gas := g, out := out } := by
  refine ⟨h.nodup, h.offered, ?_, ?_⟩
  · rw [hann.eq]
    exact h.past
  · intro hrun p hp hserial
    obtain ⟨anqp, fetched, hmono, hheap⟩ := hann.self p
    simp only [hheap] at hserial ⊢
    have hp' : p ∈ w.table.bss := by
      rw [hann.eq] at hp
      exact hp
    rcases h.marked hrun p hp' hserial with htried | hf
    · exact .inl htried
    · exact .inr (hmono hf)

theorem OneQuery.begin (w : Wpa) : OneQuery (beginFetch w) :=
  ⟨List.nodup_nil, by simp [beginFetch], by simp [beginFetch], by simp [beginFetch]⟩

theorem serial_inj (h : Shape t) {p q : Ptr} (hp : p ∈ t.bss) (hq : q ∈ t.bss)
    (heq : (t.heap p).serial = (t.heap q).serial) : p = q := by
  have hnodup : (t.bssId.map fun p => (t.heap p).serial).Nodup :=
    List.pairwise_map.mpr (h.serials.imp fun hlt => hlt.ne)
  exact List.inj_on_of_nodup_map hnodup (h.perm.mem_iff.2 hp) (h.perm.mem_iff.2 hq) heq

-- The entry that is asked next was not asked before.
theorem OneQuery.markTried (h : OneQuery w) (hshape : Shape w.table)
    (hrun : w.fetchAnqpInProgress = true) {p : Ptr} (hp : nextBss w.table = some p) (g : Gas Cb) :
    OneQuery { markTried (offer w) p with gas := g } := by
  obtain ⟨hmem, helig, hnew⟩ := nextBss_some hp
  obtain ⟨hself, hheap⟩ := markTried_heap (offer w) p
  have hfetched : (w.table.heap p).fetched = false := by
    simp only [eligible, Bool.and_eq_true, Bool.not_eq_true'] at helig
    exact helig.2
  have hnot : (w.table.heap p).serial ∉ w.queried := by
    intro hasked
    rcases h.marked hrun p hmem hasked with htried | hf
    · rw [hnew] at htried
      cases htried
    · rw [hfetched] at hf
      cases hf
  have hserial (q : Ptr) : ((Interworking.markTried (offer w) p).table.heap q).serial =
      (w.table.heap q).serial := congrArg (·.1) ((markTried_touched (offer w) p).core q)
  refine ⟨?_, ?_, ?_, ?_⟩
  · exact h.nodup.append (List.nodup_singleton _) (by simpa [offer] using hnot)
  · intro s hs
    rcases List.mem_append.mp hs with hs | hs
    · exact List.mem_append_left _ (h.offered s hs)
    refine List.mem_append_right _ ?_
    rw [List.mem_singleton.mp hs]
    exact List.mem_map_of_mem (List.mem_filter.mpr ⟨List.mem_map_of_mem hmem, helig⟩)
  · intro s hs
    rcases List.mem_append.mp hs with hs | hs
    · exact h.past s hs
    · rw [List.mem_singleton.mp hs]
      exact hshape.next p hmem
  · intro _ q hq hasked
    by_cases hqp : q = p
    · rw [hqp]
      exact .inl hself
    have hq' : q ∈ w.table.bss := hq
    have hasked' : (w.table.heap q).serial ∈ w.queried := by
      rcases List.mem_append.mp hasked with hs | hs
      · exact hserial q ▸ hs
      · exact absurd (serial_inj hshape hq' hmem
          ((hserial q).symm.trans (List.mem_singleton.mp hs))) hqp
    have hmarked := h.marked hrun q hq' hasked'
    dsimp only
    rw [hheap q hqp]
    exact hmarked

theorem OneQuery.continues (h : OneQuery w) (hshape : Shape w.table)
    (hcont : Continues env w w') : OneQuery w' := by
  cases hcont with
  | idle => exact h
  | completed networkSelect out hrun hnone =>
    exact ⟨h.nodup, fun s hs => List.mem_append_left _ (h.offered s hs), h.past,
      fun hrun => nomatch hrun⟩
  | unbuilt p hrun hp => exact h.markTried hshape hrun hp w.gas
  | asked p buf r hrun hp hbuf hreq => exact h.markTried hshape hrun hp r.2

theorem OneQuery.quiet (h : OneQuery w) (hshape : Shape w.table) {op : Op}
    (hpromised : Promised w op) (hkept : MarksKept w op) (hquiet : Quiet w op w') :
    OneQuery w' := by
  cases hquiet with
  | bss op => exact h.bss hshape op hpromised hkept
  | event env ev g hevent => exact { h with }
  | response env ev g c w1 hevent hcb hresp =>
    obtain ⟨t', out, hann, rfl⟩ := anqpRespCb_annotated hresp
    exact h.annotated g out hann
  | request op env dst freq req r hop hreq => exact { h with }
  | other op w' htable hgas hrun hqueried hoffered =>
    refine ⟨?_, ?_, ?_, ?_⟩
    · rw [hqueried]
      exact h.nodup
    · rw [hqueried, hoffered]
      exact h.offered
    · rw [hqueried, htable]
      exact h.past
    · rw [hqueried, htable]
      exact fun hrun' => h.marked (hrun hrun')

theorem OneQuery.calls (h : OneQuery w) {op : Op} {w1 : Wpa} (hcalls : Calls w op w1) :
    OneQuery w1 := by
  cases hcalls with
  | fetchAnqp => exact .begin w
  | scanResults => exact .begin _
  | response env ev g c w1 hevent hcb hresp =>
    obtain ⟨t', out, hann, rfl⟩ := anqpRespCb_annotated hresp
    exact h.annotated g out hann

theorem reach_oneQuery {start : Wpa} (hinit : start.Initial) (hreach : Reach MarksKept start w) :
    OneQuery w := by
  induction hreach with
  | init =>
    obtain ⟨-, -, -, hqueried, hoffered⟩ := hinit
    refine ⟨?_, ?_, ?_, ?_⟩ <;> simp [hqueried]
  | step op hw hpromised hkept hexec ih =>
    have hsound := reach_sound hinit hw
    rcases exec_cases hsound.gas op hexec with ⟨w1, hcalls, rfl⟩ | hquiet
    · have hsound1 := hsound.calls hpromised hcalls
      exact (ih.calls hcalls).continues hsound1.table.toShape
        (interworkingNextAnqpFetch_continues hsound1.gas op.answers)
    · exact ih.quiet hsound.table.toShape hpromised hkept hquiet

-- As long as scan results leave the marks of a fetch alone, it asks each BSS entry at most once,
-- so no more often than there were eligible entries; and when all of these have been asked, it
-- reports its end.
theorem one_query_per_bss (start : Wpa) (hinit : start.Initial) (hreach : Reach MarksKept start w) :
    w.queried.Nodup ∧ w.queried.length ≤ w.offered.dedup.length ∧
      (w.fetchAnqpInProgress = true →
        (∀ p ∈ w.table.bss, eligible (w.table.heap p) = true →
          (w.table.heap p).serial ∈ w.queried) →
        ∀ env, (interworkingNextAnqpFetch env w).fetchAnqpInProgress = false ∧
          .anqpFetchCompleted ∈ (interworkingNextAnqpFetch env w).out) := by
  have h := reach_oneQuery hinit hreach
  refine ⟨h.nodup, ?_, ?_⟩
  · refine (h.nodup.subperm fun s hs => ?_).length_le
    exact List.mem_dedup.mpr (h.offered s hs)
  · intro hrun hall env
    have hnext (p : Ptr) : nextBss w.table ≠ some p := by
      intro hp
      obtain ⟨hmem, helig, hnew⟩ := nextBss_some hp
      rcases h.marked hrun p hmem (hall p hmem helig) with htried | hf
      · rw [hnew] at htried
        cases htried
      · simp [eligible, hf] at helig
    have hcont := interworkingNextAnqpFetch_continues (reach_sound hinit hreach).gas env
    generalize interworkingNextAnqpFetch env w = w' at hcont
    cases hcont with
    | idle hidle =>
      rw [hidle] at hrun
      cases hrun
    | completed networkSelect out _ hnone hout hselect => exact ⟨rfl, hout⟩
    | unbuilt p _ hp => exact absurd hp (hnext p)
    | asked p buf r _ hp => exact absurd hp (hnext p)

def sampleRescan (bssid : Addr) : Wpa :=
  { interworkingFetchAnqp {} { table := sampleTable } with
    table := Bss.execAll (interworkingFetchAnqp {} { table := sampleTable }).table
      [.updateScanRes (some 2) ⟨20, 0⟩ (sampleAp bssid)] }

theorem marksKept_idle (t : Table) (op : Bss.Op) : MarksKept { table := t } (.bss op) := by
  cases op with
  | updateScanRes => exact fun hrun => nomatch hrun
  | _ => trivial

theorem one_query_per_bss_other :
    (sampleRescan 8).table.bss = [1, 2] ∧ (sampleRescan 8).queried.Nodup := by
  have hfetch : Reach MarksKept {} (interworkingFetchAnqp {} { table := sampleTable }) :=
    .step (.fetchAnqp {}) (reach_sampleTable marksKept_idle) trivial trivial rfl
  have hget : wpaBssGet (interworkingFetchAnqp {} { table := sampleTable }).table 8 [65] = none := by
    decide
  have hpromised : Bss.Promised (interworkingFetchAnqp {} { table := sampleTable }).table
      (.updateScanRes (some 2) ⟨20, 0⟩ (sampleAp 8)) := by
    decide
  have hreach : Reach MarksKept {} (sampleRescan 8) := by
    refine .step (.bss (.updateScanRes (some 2) ⟨20, 0⟩ (sampleAp 8))) hfetch hpromised ?_ rfl
    · intro _ ssid hssid p hp
      have hssid' : resSsid (sampleAp 8) = some [65] := by decide
      obtain rfl := Option.some.inj (hssid'.symm.trans hssid)
      exact nomatch hget.symm.trans hp
  exact ⟨by decide, (one_query_per_bss {} initial_empty hreach).1⟩

def sampleQuery : Query Cb :=
  { serial := 0, addr := 7, dialogToken := 0, freq := 2412, cb := .interworkingAnqpRespCb,
    offchannelTxStarted := true, timeoutArmed := true }

-- The scan result is of the BSS that was asked: when its query times out it is asked again.
theorem bss_queried_twice :
    Reach (fun _ _ => True) {} (sampleRescan 7) ∧ (sampleRescan 7).queried = [0] ∧
      ∃ w, exec (sampleRescan 7) (.gas {} (.timeout sampleQuery)) = some w ∧
        Reach (fun _ _ => True) {} w ∧ w.fetchAnqpInProgress = true ∧ w.queried = [0, 0] := by
  have hfetch : Reach (fun _ _ => True) {} (interworkingFetchAnqp {} { table := sampleTable }) :=
    .step (.fetchAnqp {}) (reach_sampleTable fun _ _ => trivial) trivial trivial rfl
  have hreach : Reach (fun _ _ => True) {} (sampleRescan 7) :=
    hfetch.bss (fun _ _ => trivial) [.updateScanRes (some 2) ⟨20, 0⟩ (sampleAp 7)] (by decide)
  refine ⟨hreach, by decide, _, exec_timeout rfl {},
    .step (.gas {} (.timeout sampleQuery)) hreach ⟨by decide, rfl⟩ trivial (exec_timeout rfl {}), ?_, ?_⟩
  · decide
  · decide

end WpaSupplicant.Interworking

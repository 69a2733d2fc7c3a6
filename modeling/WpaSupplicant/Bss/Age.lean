import WpaSupplicant.Bss.Theorems
import WpaSupplicant.Lib.SortedList

namespace WpaSupplicant.Bss

open Lib.DlList Lib.SortedList

variable {t : Table} {p q : Ptr} {limit : OsTime}

def stale (t : Table) (limit : OsTime) (p : Ptr) : Bool := osTimeBefore (t.heap p).lastUpdate limit

-- The entries that `wpa_bss_flush_by_age` goes past
def passes (t : Table) (limit : OsTime) (p : Ptr) : Bool := wpaBssInUse t p || stale t limit p

-- No old entry is left unless it is in use, and an entry that is not old is left.
def FlushedByAge (t t' : Table) (limit : OsTime) : Prop :=
  (∀ p ∈ t'.bss, wpaBssInUse t' p = false → stale t' limit p = false) ∧
    ∀ p ∈ t.bss, stale t limit p = false → p ∈ t'.bss

-- Where the flush stops, there is nothing to remove behind.
def NothingBehind (t : Table) (limit : OsTime) : Prop :=
  t.bss.Pairwise fun p q => passes t limit p = false → wpaBssInUse t q = false → stale t limit q = false

instance (t : Table) (limit : OsTime) : Decidable (NothingBehind t limit) :=
  inferInstanceAs (Decidable (t.bss.Pairwise fun p q =>
    passes t limit p = false → wpaBssInUse t q = false → stale t limit q = false))

theorem flushOlder_frame (limit : OsTime) (l : List Ptr) (t : Table) :
    (flushOlder limit l t).heap = t.heap ∧
      ∀ q, wpaBssInUse (flushOlder limit l t) q = wpaBssInUse t q := by
  induction l generalizing t with
  | nil => exact ⟨rfl, fun _ => rfl⟩
  | cons p l ih =>
    rw [flushOlder]
    split
    · exact ih t
    split
    · obtain ⟨hheap, huse⟩ := ih (wpaBssRemove t p)
      exact ⟨hheap, huse⟩
    · exact ⟨rfl, fun _ => rfl⟩

theorem mem_flushOlder (l : List Ptr) (hnodup : t.bss.Nodup) :
    q ∈ (flushOlder limit l t).bss ↔
      q ∈ t.bss ∧ (q ∈ l.takeWhile (passes t limit) → wpaBssInUse t q = true) := by
  induction l generalizing t with
  | nil => simp [flushOlder]
  | cons p l ih =>
    rw [flushOlder]
    by_cases huse : wpaBssInUse t p = true
    · have hpass : passes t limit p = true := by rw [passes, huse, Bool.true_or]
      rw [if_pos huse, ih hnodup, List.takeWhile_cons_of_pos hpass, List.mem_cons]
      constructor
      · rintro ⟨hq, himp⟩
        refine ⟨hq, ?_⟩
        rintro (rfl | hmem)
        · exact huse
        · exact himp hmem
      · rintro ⟨hq, himp⟩
        exact ⟨hq, fun hmem => himp (.inr hmem)⟩
    rw [if_neg huse]
    by_cases hold : osTimeBefore (t.heap p).lastUpdate limit = true
    · have hpass : passes t limit p = true := by rw [passes, stale, hold, Bool.or_true]
      have herase : q ∈ (wpaBssRemove t p).bss ↔ q ≠ p ∧ q ∈ t.bss := hnodup.mem_erase_iff
      rw [if_pos hold, ih (t := wpaBssRemove t p) (hnodup.erase p), List.takeWhile_cons_of_pos hpass,
        List.mem_cons, herase]
      constructor
      · rintro ⟨⟨hne, hq⟩, himp⟩
        refine ⟨hq, ?_⟩
        rintro (rfl | hmem)
        · exact absurd rfl hne
        · exact himp hmem
      · rintro ⟨hq, himp⟩
        refine ⟨⟨?_, hq⟩, fun hmem => himp (.inr hmem)⟩
        rintro rfl
        exact huse (himp (.inl rfl))
    · have hstop : passes t limit p ≠ true := by
        rw [passes, stale, Bool.eq_false_iff.mpr huse, Bool.eq_false_iff.mpr hold]
        decide
      rw [if_neg hold, List.takeWhile_cons_of_neg hstop]
      simp

-- In any table that can be reached, the flush does what its age says just when no old entry, which it does not see, is
-- behind the one where it stops.
theorem flushed_by_age_iff (start : Table) (hinit : start.Initial) (hreach : Reach (fun _ _ => True) start t)
    (now : OsTime) (age : ℤ) :
    FlushedByAge t (wpaBssFlushByAge t now age) ⟨now.sec - age, now.usec⟩ ↔
      NothingBehind t ⟨now.sec - age, now.usec⟩ := by
  have hnodup : t.bss.Nodup := (reach_inv hinit hreach).nodup
  set limit : OsTime := ⟨now.sec - age, now.usec⟩ with hlimit
  obtain ⟨hheap, huse⟩ := flushOlder_frame limit t.bss t
  have hmem (q : Ptr) : q ∈ (flushOlder limit t.bss t).bss ↔
      q ∈ t.bss ∧ (q ∈ t.bss.takeWhile (passes t limit) → wpaBssInUse t q = true) := mem_flushOlder t.bss hnodup
  have hstale (q : Ptr) : stale (flushOlder limit t.bss t) limit q = stale t limit q := by
    rw [stale, hheap]
    rfl
  have hwanted (q : Ptr) : (!wpaBssInUse t q && stale t limit q) = true → passes t limit q = true := by
    intro h
    rw [passes, (Bool.and_eq_true_iff.mp h).2, Bool.or_true]
  have hfind := takeWhile_finds (fun q => !wpaBssInUse t q && stale t limit q) hnodup fun q _ => hwanted q
  -- an entry that is not old is never removed
  have hyoung : ∀ q ∈ t.bss, stale t limit q = false → q ∈ (flushOlder limit t.bss t).bss := by
    intro q hq hfresh
    refine (hmem q).mpr ⟨hq, fun hpass => ?_⟩
    have hgone := List.mem_takeWhile_imp hpass
    rwa [passes, hfresh, Bool.or_false] at hgone
  have hbehind : NothingBehind t limit ↔ t.bss.Pairwise fun p q =>
      passes t limit p = false → (!wpaBssInUse t q && stale t limit q) = false := by
    refine List.Pairwise.iff fun p q => imp_congr_right fun _ => ?_
    cases wpaBssInUse t q <;> simp
  rw [hbehind, ← hfind]
  constructor
  · rintro ⟨hold, -⟩ q hq hwant
    obtain ⟨hfree, hstaleq⟩ := Bool.and_eq_true_iff.mp hwant
    rw [Bool.not_eq_true'] at hfree
    by_contra hnot
    have hleft := hold q ((hmem q).mpr ⟨hq, fun hpass => absurd hpass hnot⟩) ((huse q).trans hfree)
    rw [wpaBssFlushByAge, ← hlimit, hstale q, hstaleq] at hleft
    cases hleft
  · intro hfound
    refine ⟨fun q hq hfree => ?_, hyoung⟩
    rw [wpaBssFlushByAge, ← hlimit] at hq hfree ⊢
    obtain ⟨hbss, hpass⟩ := (hmem q).mp hq
    have hfree' : wpaBssInUse t q = false := (huse q).symm.trans hfree
    rw [hstale q]
    refine Bool.eq_false_iff.mpr fun hstaleq => ?_
    have huseq := hpass (hfound q hbss (by rw [hfree', hstaleq]; rfl))
    rw [hfree'] at huseq
    cases huseq

def sampleAges (age : ℕ) : List Op :=
  [.updateStart, .updateScanRes (some 1) ⟨1000, 0⟩ (sampleRes 7 [65] 0),
    .updateScanRes (some 2) ⟨1000, 0⟩ { sampleRes 8 [66] 0 with age := age }]

theorem flushed_by_age_second :
    FlushedByAge (execAll {} (sampleAges 2000)) (wpaBssFlushByAge (execAll {} (sampleAges 2000)) ⟨1100, 0⟩ 150) ⟨950, 0⟩ := by
  have hreach : Reach (fun _ _ => True) {} (execAll {} (sampleAges 2000)) := Reach.init.execAll _ (by decide)
  exact (flushed_by_age_iff {} ⟨rfl, rfl, rfl, rfl, rfl, rfl, rfl⟩ hreach ⟨1100, 0⟩ 150).mpr (by decide)

-- The entry of the older result is behind the other one, where the flush does not come.
theorem old_entry_stays :
    Reach (fun _ _ => True) {} (execAll {} (sampleAges 100000)) ∧
      ¬ FlushedByAge (execAll {} (sampleAges 100000))
        (wpaBssFlushByAge (execAll {} (sampleAges 100000)) ⟨1100, 0⟩ 150) ⟨950, 0⟩ := by
  refine ⟨Reach.init.execAll _ (by decide), fun h => ?_⟩
  have hold := h.1 2 (by decide) (by decide)
  revert hold
  decide

end WpaSupplicant.Bss

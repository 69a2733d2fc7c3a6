import Mathlib.Data.Prod.Lex
import Mathlib.Algebra.Order.Ring.Int
import Mathlib.Data.List.Perm.Basic
import Mathlib.Data.List.Nodup
import WpaSupplicant.Eloop
import WpaSupplicant.Lib.SortedList

namespace WpaSupplicant.Eloop

open Lib.SortedList

variable {l : EloopData}

def timeKey (t : OsTime) : ℤ ×ₗ ℤ := toLex (t.sec, t.usec)

theorem osTimeBefore_iff (a b : OsTime) : osTimeBefore a b = true ↔ timeKey a < timeKey b := by
  rw [timeKey, timeKey, Prod.Lex.toLex_lt_toLex]
  simp [osTimeBefore]

theorem osTimeBefore_eq_false (a b : OsTime) :
    osTimeBefore a b = false ↔ timeKey b ≤ timeKey a := by
  rw [← Bool.not_eq_true, osTimeBefore_iff, not_lt]

theorem timeKey_le (a b : OsTime) :
    timeKey a ≤ timeKey b ↔ a.sec < b.sec ∨ a.sec = b.sec ∧ a.usec ≤ b.usec := by
  rw [timeKey, timeKey, Prod.Lex.toLex_le_toLex]

-- Carrying keeps the time and takes it no further back, and enough rounds make it proper.
theorem carry_spec (fuel : ℕ) (t : OsTime) :
    micros (carry fuel t) = micros t ∧ timeKey t ≤ timeKey (carry fuel t) ∧
      (t.usec ≤ fuel → (carry fuel t).usec < usecPerSec) := by
  induction fuel generalizing t with
  | zero =>
    refine ⟨rfl, le_refl _, fun hfuel => ?_⟩
    show t.usec < usecPerSec
    unfold usecPerSec
    omega
  | succ fuel ih =>
    rw [carry]
    by_cases hfull : usecPerSec ≤ t.usec
    · rw [if_pos hfull]
      obtain ⟨hmicros, hkey, husec⟩ := ih ⟨t.sec + 1, t.usec - usecPerSec⟩
      refine ⟨?_, ?_, ?_⟩
      · rw [hmicros]
        simp only [micros, usecPerSec]
        ring
      · refine le_trans ?_ hkey
        rw [timeKey_le]
        exact .inl (by simp)
      · intro hfuel
        refine husec ?_
        simp only [usecPerSec]
        omega
    · rw [if_neg hfull]
      exact ⟨rfl, le_refl _, fun _ => not_le.mp hfull⟩

theorem timeoutTime_spec {now time : OsTime} {secs usecs : UInt32}
    (h : timeoutTime now secs usecs = some time) (hlow : -2 ^ 63 ≤ now.sec)
    (hhigh : now.sec < 2 ^ 63) :
    timeKey now ≤ timeKey time ∧ time.usec < usecPerSec ∧
      micros time = micros now + secs.toNat * usecPerSec + usecs.toNat := by
  unfold timeoutTime at h
  dsimp only at h
  split at h
  · cases h
  rename_i hsec
  obtain rfl := Option.some.inj h
  have hsecs : secs.toNat < 2 ^ 32 := secs.toNat_lt
  -- a sum that does not fit is less than the time of the registration
  have hwrap : wrapLong (now.sec + secs.toNat) = now.sec + secs.toNat := by
    unfold wrapLong at hsec ⊢
    unfold Int.bmod at hsec ⊢
    dsimp only at hsec ⊢
    omega
  obtain ⟨hmicros, hkey, husec⟩ := carry_spec (now.usec + usecs.toNat).toNat
    ⟨wrapLong (now.sec + secs.toNat), now.usec + usecs.toNat⟩
  refine ⟨le_trans ?_ hkey, husec (Int.self_le_toNat _), ?_⟩
  · rw [timeKey_le, hwrap]
    dsimp only
    omega
  · rw [hmicros, hwrap]
    simp only [micros]
    ring

theorem micros_le {a b : OsTime} (hkey : timeKey a ≤ timeKey b) (ha : a.usec < usecPerSec)
    (hb : 0 ≤ b.usec) : micros a ≤ micros b := by
  rw [timeKey_le] at hkey
  unfold micros
  unfold usecPerSec at ha ⊢
  omega

def key (t : Timeout) : (ℤ ×ₗ ℤ) ×ₗ ℕ := toLex (timeKey t.time, t.serial)

theorem key_le (a b : Timeout) :
    key a ≤ key b ↔ timeKey a.time < timeKey b.time ∨
      timeKey a.time = timeKey b.time ∧ a.serial ≤ b.serial := by
  rw [key, key, Prod.Lex.toLex_le_toLex]

theorem insertTimeout_eq (t : Timeout) (rest : List Timeout)
    (hnew : ∀ u ∈ rest, u.serial < t.serial) : insertTimeout t rest = insertBy key t rest := by
  induction rest with
  | nil => rfl
  | cons u rest ih =>
    have hu := hnew u (List.mem_cons_self ..)
    have hbefore : osTimeBefore t.time u.time = true ↔ key t < key u := by
      rw [osTimeBefore_iff, key, key, Prod.Lex.toLex_lt_toLex]
      dsimp only
      constructor
      · exact .inl
      · rintro (hlt | ⟨-, hlt⟩)
        · exact hlt
        · omega
    rw [insertTimeout, insertBy, ih fun v hv => hnew v (List.mem_cons_of_mem u hv)]
    by_cases hlt : key t < key u
    · rw [if_pos hlt, if_pos (hbefore.mpr hlt)]
    · rw [if_neg hlt, if_neg fun h => hlt (hbefore.mp h)]

inductive Steps (l : EloopData) : EloopData → Prop where
  | unchanged : Steps l l
  | read (now : OsTime) (hreading : Reading l now) : Steps l { l with clock := now }
  | insert (t : Timeout) (now : OsTime) (hreading : Reading l now) (hserial : t.serial = l.next)
      (hkey : timeKey now ≤ timeKey t.time) (husec : t.time.usec < usecPerSec)
      (hdue : micros t.time = t.due) :
      Steps l { l with
        clock := now, timeout := insertTimeout t l.timeout, next := l.next + 1 }
  | cancel (f : Timeout → Bool) :
      Steps l { l with
        timeout := l.timeout.filter fun t => !f t
        cancelled := l.cancelled ++ (l.timeout.filter f).map Timeout.serial }
  | wait (now : OsTime) (hreading : Reading l now)
      (hwait : ∀ t ∈ l.timeout.head?, timeKey now < timeKey t.time) :
      Steps l { l with clock := now, rounds := l.rounds + 1 }
  | fire (now : OsTime) (t : Timeout) (rest : List Timeout) (hreading : Reading l now)
      (hlist : l.timeout = t :: rest) (hdue : timeKey t.time ≤ timeKey now) :
      Steps l { l with
        clock := now, rounds := l.rounds + 1, timeout := rest, fired := l.fired ++ [⟨t, now⟩] }

theorem exec_steps (op : Op) (hticks : Ticks l op) : Steps l (exec l op) := by
  cases op with
  | register alloc clock secs usecs handler eloopData userData =>
    unfold exec eloopRegisterTimeout
    dsimp only
    split
    · exact .unchanged
    cases clock with
    | none => exact .unchanged
    | some now =>
      have hreading : Reading l now := hticks now rfl
      dsimp only
      cases htime : timeoutTime now secs usecs with
      | none => exact .read now hreading
      | some time =>
        obtain ⟨hkey, husec, hdue⟩ :=
          timeoutTime_spec htime hreading.2.2.2.1 hreading.2.2.2.2
        exact .insert _ now hreading rfl hkey husec hdue
  | cancel handler eloopData userData => exact .cancel (cancels handler eloopData userData)
  | round now =>
    unfold exec runTimeouts
    dsimp only
    split
    · rename_i hnil
      refine .wait now hticks ?_
      rw [hnil]
      exact nofun
    rename_i t rest hlist
    split
    · rename_i hbefore
      refine .wait now hticks fun u hu => ?_
      rw [hlist] at hu
      obtain rfl := Option.some.inj hu
      exact (osTimeBefore_iff _ _).mp hbefore
    · rename_i hbefore
      exact .fire now t rest hticks hlist
        ((osTimeBefore_eq_false _ _).mp (by simpa using hbefore))

end WpaSupplicant.Eloop

namespace WpaSupplicant.Eloop

open Lib.SortedList

variable {l l' : EloopData}

def pending (l : EloopData) : List ℕ := l.timeout.map Timeout.serial

def called (l : EloopData) : List ℕ := l.fired.map fun f => f.timeout.serial

-- The timeouts and the calls of handlers are in order, calls before what is pending; each
-- registration is accounted for once; and no call was early.
structure Inv (l : EloopData) : Prop where
  order : SortedBy key l.timeout
  account : (pending l ++ (l.cancelled ++ called l)).Perm (List.range l.next)
  proper : ∀ t ∈ l.timeout, t.time.usec < usecPerSec ∧ micros t.time = t.due
  late : ∀ f ∈ l.fired, osTimeBefore f.now f.timeout.time = false ∧ f.timeout.due ≤ micros f.now
  past : ∀ f ∈ l.fired, timeKey f.timeout.time ≤ timeKey l.clock
  firedOrder : SortedBy key (l.fired.map Fired.timeout)
  across : ∀ f ∈ l.fired, ∀ t ∈ l.timeout, key f.timeout ≤ key t

theorem Inv.nodup (h : Inv l) : (pending l ++ (l.cancelled ++ called l)).Nodup :=
  h.account.nodup_iff.mpr List.nodup_range

theorem Inv.pending_lt (h : Inv l) {s : ℕ} (hs : s ∈ pending l) : s < l.next :=
  List.mem_range.mp (h.account.mem_iff.1 (List.mem_append_left _ hs))

theorem Inv.called_lt (h : Inv l) {s : ℕ} (hs : s ∈ called l) : s < l.next :=
  List.mem_range.mp (h.account.mem_iff.1
    (List.mem_append_right _ (List.mem_append_right _ hs)))

theorem Reading.clock {now : OsTime} (h : Reading l now) : timeKey l.clock ≤ timeKey now :=
  (osTimeBefore_eq_false _ _).mp h.1

theorem Inv.tick (h : Inv l) {now : OsTime} (hreading : Reading l now) (n : ℕ) :
    Inv { l with clock := now, rounds := n } :=
  { h with past := fun f hf => (h.past f hf).trans hreading.clock }

theorem Inv.insert (h : Inv l) {t : Timeout} {now : OsTime} (hreading : Reading l now)
    (hserial : t.serial = l.next) (hkey : timeKey now ≤ timeKey t.time)
    (husec : t.time.usec < usecPerSec) (hdue : micros t.time = t.due) :
    Inv { l with clock := now, timeout := insertTimeout t l.timeout, next := l.next + 1 } := by
  have hnew : ∀ u ∈ l.timeout, u.serial < t.serial := fun u hu =>
    hserial ▸ h.pending_lt (List.mem_map_of_mem hu)
  have hins := insertTimeout_eq t l.timeout hnew
  have hperm : (insertTimeout t l.timeout).Perm (t :: l.timeout) := by
    rw [hins]
    exact insertBy_perm key t l.timeout
  refine ⟨?_, ?_, ?_, h.late, fun f hf => (h.past f hf).trans hreading.clock, h.firedOrder, ?_⟩
  · rw [hins]
    exact h.order.insertBy t
  · have hpending : ((insertTimeout t l.timeout).map Timeout.serial).Perm
        (l.next :: pending l) := by
      rw [← hserial]
      exact hperm.map Timeout.serial
    rw [List.range_succ]
    refine (hpending.append_right _).trans ?_
    exact (h.account.cons l.next).trans (List.perm_append_singleton _ _).symm
  · intro u hu
    rcases List.mem_cons.mp (hperm.mem_iff.1 hu) with rfl | hu
    · exact ⟨husec, hdue⟩
    · exact h.proper u hu
  · intro f hf u hu
    rcases List.mem_cons.mp (hperm.mem_iff.1 hu) with rfl | hu
    · -- a registration is not before the calls made so far
      rw [key_le]
      have hserialLt := h.called_lt (List.mem_map_of_mem hf)
      rcases (((h.past f hf).trans hreading.clock).trans hkey).lt_or_eq with hlt | heq
      · exact .inl hlt
      · exact .inr ⟨heq, by omega⟩
    · exact h.across f hf u hu

theorem Inv.cancel (h : Inv l) (f : Timeout → Bool) :
    Inv { l with
      timeout := l.timeout.filter fun t => !f t
      cancelled := l.cancelled ++ (l.timeout.filter f).map Timeout.serial } := by
  have hsub : (l.timeout.filter fun t => !f t).Sublist l.timeout := List.filter_sublist
  refine ⟨h.order.of_sublist hsub, ?_, fun t ht => h.proper t (hsub.subset ht), h.late, h.past,
    h.firedOrder, fun g hg t ht => h.across g hg t (hsub.subset ht)⟩
  -- the cancelled ones move from the first part to the second
  have hsplit := (List.filter_append_perm f l.timeout).map Timeout.serial
  refine List.Perm.trans ?_ h.account
  refine List.Perm.trans ?_ (hsplit.append_right (l.cancelled ++ called l))
  rw [List.perm_iff_count]
  intro s
  simp only [pending, called, List.map_append, List.count_append]
  omega

theorem Inv.fire (h : Inv l) {now : OsTime} {t : Timeout} {rest : List Timeout}
    (hreading : Reading l now) (hlist : l.timeout = t :: rest)
    (hdue : timeKey t.time ≤ timeKey now) (n : ℕ) :
    Inv { l with
      clock := now, rounds := n, timeout := rest, fired := l.fired ++ [⟨t, now⟩] } := by
  have hmem : t ∈ l.timeout := by simp [hlist]
  have hrest : ∀ u ∈ rest, u ∈ l.timeout := fun u hu => by simp [hlist, hu]
  have hsort := h.order
  rw [hlist] at hsort
  obtain ⟨hhead, htail⟩ := List.pairwise_cons.mp hsort
  -- a call is an earlier one or the new one
  have hcases (g : Fired) (hg : g ∈ l.fired ++ [⟨t, now⟩]) : g ∈ l.fired ∨ g = ⟨t, now⟩ := by
    simpa using hg
  refine ⟨htail, ?_, fun u hu => h.proper u (hrest u hu), ?_, ?_, ?_, ?_⟩
  · refine List.Perm.trans ?_ h.account
    rw [List.perm_iff_count]
    intro s
    simp only [pending, called, hlist, List.map_append, List.map_cons, List.map_nil,
      List.count_append, List.count_cons, List.count_nil]
    omega
  · intro g hg
    rcases hcases g hg with hg | rfl
    · exact h.late g hg
    obtain ⟨husec, hmicros⟩ := h.proper t hmem
    refine ⟨(osTimeBefore_eq_false _ _).mpr hdue, ?_⟩
    rw [← hmicros]
    exact micros_le hdue husec hreading.2.1
  · intro g hg
    rcases hcases g hg with hg | rfl
    · exact (h.past g hg).trans hreading.clock
    · exact hdue
  · rw [List.map_append]
    refine List.pairwise_append.mpr ⟨h.firedOrder, List.pairwise_singleton _ _, ?_⟩
    intro a ha b hb
    obtain ⟨g, hg, rfl⟩ := List.mem_map.mp ha
    rw [List.mem_singleton.mp hb]
    exact h.across g hg t hmem
  · intro g hg u hu
    rcases hcases g hg with hg | rfl
    · exact h.across g hg u (hrest u hu)
    · exact hhead u hu

theorem Inv.steps (h : Inv l) (hsteps : Steps l l') : Inv l' := by
  cases hsteps with
  | unchanged => exact h
  | read now hreading => exact h.tick hreading l.rounds
  | insert t now hreading hserial hkey husec hdue =>
    exact h.insert hreading hserial hkey husec hdue
  | cancel f => exact h.cancel f
  | wait now hreading => exact h.tick hreading _
  | fire now t rest hreading hlist hdue => exact h.fire hreading hlist hdue _

theorem reach_inv {start : EloopData} (hinit : Inv start) (hreach : Reach start l) : Inv l := by
  induction hreach with
  | init => exact hinit
  | step op _ hticks ih => exact ih.steps (exec_steps op hticks)

theorem initial_inv (hinit : l.Initial) : Inv l := by
  obtain ⟨htimeout, hnext, hcancelled, hfired⟩ := hinit
  constructor <;> simp [SortedBy, pending, called, htimeout, hnext, hcancelled, hfired]

section Progress

structure Nearing (e : Timeout) (bound : ℕ) (l : EloopData) : Prop where
  known : e.serial < l.next
  due : timeKey e.time ≤ timeKey l.clock
  turn : e.serial ∈ pending l → e ∈ l.timeout ∧ l.timeout.idxOf e + l.rounds ≤ bound

variable {e : Timeout} {bound : ℕ}

theorem Nearing.later (h : Nearing e bound l) {now : OsTime} (hreading : Reading l now) :
    timeKey e.time ≤ timeKey now := h.due.trans hreading.clock

-- Taking others out of a list brings an entry forward.
theorem idxOf_filter_le (p : Timeout → Bool) (he : p e = true) (rest : List Timeout) :
    (rest.filter p).idxOf e ≤ rest.idxOf e := by
  induction rest with
  | nil => simp
  | cons t rest ih =>
    by_cases hte : t = e
    · subst hte
      simp [he]
    by_cases hp : p t = true
    · rw [List.filter_cons_of_pos hp, List.idxOf_cons_ne _ hte, List.idxOf_cons_ne _ hte]
      omega
    · rw [List.filter_cons_of_neg hp, List.idxOf_cons_ne _ hte]
      omega

theorem idxOf_insertTimeout (hinv : Inv l) {t : Timeout} (hserial : t.serial = l.next)
    (he : e ∈ l.timeout) (hkey : timeKey e.time ≤ timeKey t.time) :
    (insertTimeout t l.timeout).idxOf e = l.timeout.idxOf e ∧ e ∈ insertTimeout t l.timeout := by
  have hnew : ∀ u ∈ l.timeout, u.serial < t.serial := fun u hu =>
    hserial ▸ hinv.pending_lt (List.mem_map_of_mem hu)
  rw [insertTimeout_eq t l.timeout hnew]
  obtain ⟨l₁, l₂, hsplit, hins, -, hlt⟩ := hinv.order.insertBy_split t
  have hekey : key e ≤ key t := by
    rw [key_le]
    rcases hkey.lt_or_eq with hlt | heq
    · exact .inl hlt
    · exact .inr ⟨heq, (hnew e he).le⟩
  have hmem : e ∈ l₁ := by
    rw [hsplit] at he
    rcases List.mem_append.mp he with he | he
    · exact he
    · exact absurd (hlt e he) (not_lt.mpr hekey)
  rw [hins, hsplit, List.idxOf_append_of_mem hmem, List.idxOf_append_of_mem hmem]
  exact ⟨rfl, List.mem_append_left _ hmem⟩

theorem Nearing.steps (hinv : Inv l) (h : Nearing e bound l) (hsteps : Steps l l') :
    Nearing e bound l' := by
  cases hsteps with
  | unchanged => exact h
  | read now hreading => exact ⟨h.known, h.later hreading, h.turn⟩
  | insert t now hreading hserial hkey husec hdue =>
    refine ⟨Nat.lt_succ_of_lt h.known, h.later hreading, fun hs => ?_⟩
    have hold : e.serial ∈ pending l := by
      have hnew : ∀ u ∈ l.timeout, u.serial < t.serial := fun u hu =>
        hserial ▸ hinv.pending_lt (List.mem_map_of_mem hu)
      have hs' : e.serial ∈ (insertTimeout t l.timeout).map Timeout.serial := hs
      rw [insertTimeout_eq t l.timeout hnew] at hs'
      rcases List.mem_cons.mp (((insertBy_perm key t l.timeout).map _).mem_iff.mp hs')
        with heq | hs'
      · have := h.known
        omega
      · exact hs'
    obtain ⟨he, hbound⟩ := h.turn hold
    obtain ⟨hidx, hmem⟩ := idxOf_insertTimeout hinv hserial he ((h.later hreading).trans hkey)
    exact ⟨hmem, hidx ▸ hbound⟩
  | cancel f =>
    refine ⟨h.known, h.due, fun hs => ?_⟩
    obtain ⟨u, hu, hus⟩ := List.mem_map.mp hs
    obtain ⟨hul, hkept⟩ := List.mem_filter.mp hu
    obtain ⟨he, hbound⟩ := h.turn (hus ▸ List.mem_map_of_mem hul)
    have hnodup : (pending l).Nodup := (List.nodup_append.mp hinv.nodup).1
    obtain rfl : u = e := List.inj_on_of_nodup_map hnodup hul he hus
    refine ⟨hu, le_trans ?_ hbound⟩
    exact Nat.add_le_add_right (idxOf_filter_le _ hkept _) _
  | wait now hreading hwait =>
    refine ⟨h.known, h.later hreading, fun hs => ?_⟩
    -- the first timeout is not after this one, so it would have been called
    obtain ⟨he, -⟩ := h.turn hs
    cases hlist : l.timeout with
    | nil =>
      rw [hlist] at he
      cases he
    | cons t rest =>
      have hlt := hwait t (by simp [hlist])
      have hle : timeKey t.time ≤ timeKey e.time := by
        have hsort := hinv.order
        rw [hlist] at hsort he
        rcases List.mem_cons.mp he with rfl | he
        · exact le_refl _
        rcases (key_le t e).mp ((List.pairwise_cons.mp hsort).1 e he) with hk | ⟨hk, -⟩
        · exact hk.le
        · exact hk.le
      exact absurd (hle.trans (h.later hreading)) (not_le.mpr hlt)
  | fire now t rest hreading hlist hdue =>
    refine ⟨h.known, h.later hreading, fun hs => ?_⟩
    have hs' : e.serial ∈ rest.map Timeout.serial := hs
    obtain ⟨he, hbound⟩ := h.turn (by
      rw [pending, hlist]
      exact List.mem_cons_of_mem _ hs')
    have hnodup : (t.serial :: rest.map Timeout.serial).Nodup := by
      have := (List.nodup_append.mp hinv.nodup).1
      rwa [pending, hlist] at this
    have hne : t ≠ e := by
      rintro rfl
      exact (List.nodup_cons.mp hnodup).1 hs'
    rw [hlist] at he hbound
    rw [List.idxOf_cons_ne _ hne] at hbound
    refine ⟨(List.mem_cons.mp he).resolve_left hne.symm, ?_⟩
    show rest.idxOf e + (l.rounds + 1) ≤ bound
    omega

theorem reach_nearing (hinv : Inv l) (h : Nearing e bound l) (hreach : Reach l l') :
    Nearing e bound l' := by
  induction hreach with
  | init => exact h
  | step op hl hticks ih => exact ih.steps (reach_inv hinv hl) (exec_steps op hticks)

end Progress

-- The order of the list in the terms of the code
def Before (a b : Timeout) : Prop :=
  osTimeBefore a.time b.time = true ∨ a.time = b.time ∧ a.serial < b.serial

theorem before_of_key {a b : Timeout} (hkey : key a ≤ key b) (hne : a.serial ≠ b.serial) :
    Before a b := by
  rcases (key_le a b).mp hkey with hlt | ⟨heq, hle⟩
  · exact .inl ((osTimeBefore_iff _ _).mpr hlt)
  obtain ⟨hsec, husec⟩ := Prod.mk.inj (toLex.injective heq)
  refine .inr ⟨?_, by omega⟩
  cases ha : a.time
  cases hb : b.time
  simp_all

theorem pairwise_before {list : List Timeout} (hsort : SortedBy key list)
    (hnodup : (list.map Timeout.serial).Nodup) : list.Pairwise Before :=
  (List.Pairwise.and hsort (List.pairwise_map.mp hnodup)).imp fun h => before_of_key h.1 h.2

section Calls

def Matches (handler eloopData userData : Ptr) (t : Timeout) : Prop :=
  t.handler = handler ∧ (t.eloopData = eloopData ∨ eloopData = eloopAllCtx) ∧
    (t.userData = userData ∨ userData = eloopAllCtx)

theorem cancels_iff {handler eloopData userData : Ptr} {t : Timeout} :
    cancels handler eloopData userData t = true ↔ Matches handler eloopData userData t := by
  simp [cancels, Matches, and_assoc]

-- A cancellation settles the timeouts it is for, and touches no others and no call.
structure CancelsAll (handler eloopData userData : Ptr) (l l' : EloopData) : Prop where
  gone : ∀ t ∈ l'.timeout, ¬Matches handler eloopData userData t
  kept : ∀ t ∈ l.timeout, ¬Matches handler eloopData userData t → t ∈ l'.timeout
  settled : ∀ t ∈ l.timeout, Matches handler eloopData userData t →
    t.serial ∈ l'.cancelled ∧ t.serial ∉ pending l'
  only : ∀ s ∈ l'.cancelled, s ∈ l.cancelled ∨
    ∃ t ∈ l.timeout, Matches handler eloopData userData t ∧ t.serial = s
  fired : l'.fired = l.fired

theorem Inv.cancelsAll (h : Inv l) (handler eloopData userData : Ptr) :
    CancelsAll handler eloopData userData l (exec l (.cancel handler eloopData userData)) := by
  have hafter : Inv (exec l (.cancel handler eloopData userData)) := h.cancel _
  refine ⟨?_, ?_, ?_, ?_, rfl⟩
  · intro t ht
    have hnot := (List.mem_filter.mp ht).2
    rw [Bool.not_eq_true', ← Bool.not_eq_true, cancels_iff] at hnot
    exact hnot
  · intro t ht hnot
    refine List.mem_filter.mpr ⟨ht, ?_⟩
    rw [Bool.not_eq_true', ← Bool.not_eq_true, cancels_iff]
    exact hnot
  · intro t ht hmatch
    have hmem : t.serial ∈ (exec l (.cancel handler eloopData userData)).cancelled :=
      List.mem_append_right _
        (List.mem_map_of_mem (List.mem_filter.mpr ⟨ht, cancels_iff.mpr hmatch⟩))
    exact ⟨hmem, fun hs =>
      (List.nodup_append.mp hafter.nodup).2.2 _ hs _ (List.mem_append_left _ hmem) rfl⟩
  · intro s hs
    rcases List.mem_append.mp hs with hs | hs
    · exact .inl hs
    · obtain ⟨t, ht, rfl⟩ := List.mem_map.mp hs
      obtain ⟨ht, hmatch⟩ := List.mem_filter.mp ht
      exact .inr ⟨t, ht, cancels_iff.mp hmatch, rfl⟩

theorem exec_cancelled (op : Op) (hop : ∀ handler eloopData userData, op ≠ .cancel handler eloopData userData) :
    (exec l op).cancelled = l.cancelled := by
  cases op with
  | register alloc clock secs usecs handler eloopData userData =>
    unfold exec eloopRegisterTimeout
    dsimp only
    split
    · rfl
    cases clock with
    | none => rfl
    | some now =>
      dsimp only
      split <;> rfl
  | cancel handler eloopData userData => exact absurd rfl (hop handler eloopData userData)
  | round now =>
    unfold exec runTimeouts
    dsimp only
    split
    · rfl
    · split <;> rfl

-- What was cancelled stays so: nothing is taken out of the history.
theorem reach_cancelled (hreach : Reach l l') {s : ℕ} (hs : s ∈ l.cancelled) : s ∈ l'.cancelled := by
  induction hreach with
  | init => exact hs
  | step op hl hticks ih =>
    cases op with
    | cancel handler eloopData userData => exact List.mem_append_left _ ih
    | register | round =>
      rw [exec_cancelled]
      · exact ih
      · simp

theorem Inv.not_again (h : Inv l) {s : ℕ} (hs : s ∈ l.cancelled) : s ∉ pending l ∧ s ∉ called l := by
  obtain ⟨-, hrest, hdisjoint⟩ := List.nodup_append.mp h.nodup
  refine ⟨fun hp => hdisjoint _ hp _ (List.mem_append_left _ hs) rfl, fun hc => ?_⟩
  exact (List.nodup_append.mp hrest).2.2 _ hs _ hc rfl

theorem Inv.register_perm (h : Inv l) {now time : OsTime} {secs usecs : UInt32}
    (handler eloopData userData : Ptr) (htime : timeoutTime now secs usecs = some time) :
    (exec l (.register true (some now) secs usecs handler eloopData userData)).timeout.Perm
      (⟨l.next, micros now + secs.toNat * usecPerSec + usecs.toNat, time, eloopData, userData, handler⟩ ::
        l.timeout) := by
  unfold exec eloopRegisterTimeout
  dsimp only
  rw [if_neg (by decide), htime]
  dsimp only
  rw [insertTimeout_eq _ _ fun u hu => h.pending_lt (List.mem_map_of_mem hu)]
  exact insertBy_perm key _ _

end Calls

-- Every registration is pending, was cancelled or had its handler called, once and not more than one of
-- these; no handler was called early, all were called in the order of the list, and a timeout whose time
-- has come is settled after as many rounds as it has others in front of it, and one. Only a cancellation
-- cancels, all that it is for, and what was cancelled is never called again.
theorem eloop_timeouts (start : EloopData) (hinit : start.Initial) (hreach : Reach start l) :
    l.timeout.Pairwise Before ∧
      (pending l ++ (l.cancelled ++ called l)).Perm (List.range l.next) ∧
      (∀ f ∈ l.fired, osTimeBefore f.now f.timeout.time = false ∧
        f.timeout.due ≤ micros f.now) ∧
      (l.fired.map Fired.timeout).Pairwise Before ∧
      (∀ l', Reach l l' → ∀ e ∈ l.timeout, osTimeBefore l.clock e.time = false →
        l.timeout.idxOf e + l.rounds < l'.rounds →
        e.serial ∉ pending l' ∧ (e.serial ∈ l'.cancelled ∨ e.serial ∈ called l')) ∧
      (∀ now time secs usecs handler eloopData userData, timeoutTime now secs usecs = some time →
        (exec l (.register true (some now) secs usecs handler eloopData userData)).timeout.Perm
          (⟨l.next, micros now + secs.toNat * usecPerSec + usecs.toNat, time, eloopData, userData, handler⟩ ::
            l.timeout)) ∧
      (∀ handler eloopData userData,
        CancelsAll handler eloopData userData l (exec l (.cancel handler eloopData userData))) ∧
      (∀ op, (∀ handler eloopData userData, op ≠ .cancel handler eloopData userData) →
        (exec l op).cancelled = l.cancelled) ∧
      ∀ l', Reach l l' → ∀ s ∈ l.cancelled, s ∈ l'.cancelled ∧ s ∉ pending l' ∧ s ∉ called l' := by
  have h := reach_inv (initial_inv hinit) hreach
  obtain ⟨hpending, hrest, -⟩ := List.nodup_append.mp h.nodup
  have hcalled : ((l.fired.map Fired.timeout).map Timeout.serial).Nodup := by
    rw [List.map_map]
    exact (List.nodup_append.mp hrest).2.1
  refine ⟨pairwise_before h.order hpending, h.account, h.late,
    pairwise_before h.firedOrder hcalled, ?_,
    fun now time secs usecs handler eloopData userData => h.register_perm handler eloopData userData,
    h.cancelsAll, exec_cancelled, ?_⟩
  · intro l' hreach' e he hdue hrounds
    have hknown : e.serial < l.next := h.pending_lt (List.mem_map_of_mem he)
    have hnear : Nearing e (l.timeout.idxOf e + l.rounds) l :=
      ⟨hknown, (osTimeBefore_eq_false _ _).mp hdue, fun _ => ⟨he, le_refl _⟩⟩
    have hnear' := reach_nearing h hnear hreach'
    have hnot : e.serial ∉ pending l' := fun hs => by
      have := (hnear'.turn hs).2
      omega
    refine ⟨hnot, ?_⟩
    have hmem := (reach_inv h hreach').account.mem_iff.mpr (List.mem_range.mpr hnear'.known)
    rcases List.mem_append.mp hmem with hs | hs
    · exact absurd hs hnot
    · exact List.mem_append.mp hs
  · intro l' hreach' s hs
    have hs' := reach_cancelled hreach' hs
    exact ⟨hs', (reach_inv h hreach').not_again hs'⟩

def sampleSteps : List Op :=
  [.register true (some ⟨10, 0⟩) 1 0 5 1 2, .register true (some ⟨10, 0⟩) 0 500000 6 1 2,
    .round ⟨12, 0⟩, .register true (some ⟨12, 0⟩) 0 0 7 1 2]

theorem eloop_timeouts_reentrant :
    called (sampleSteps.foldl exec {}) = [1] ∧
      (sampleSteps.foldl exec {}).timeout.Pairwise Before ∧
      (pending (sampleSteps.foldl exec {}) ++
        ((sampleSteps.foldl exec {}).cancelled ++ called (sampleSteps.foldl exec {}))).Perm
        (List.range 3) ∧
      pending (sampleSteps.foldl exec {}) = [0, 2] ∧
      CancelsAll 5 eloopAllCtx eloopAllCtx (sampleSteps.foldl exec {})
        (exec (sampleSteps.foldl exec {}) (.cancel 5 eloopAllCtx eloopAllCtx)) ∧
      (exec (sampleSteps.foldl exec {}) (.cancel 5 eloopAllCtx eloopAllCtx)).cancelled = [0] ∧
      pending (exec (sampleSteps.foldl exec {}) (.cancel 5 eloopAllCtx eloopAllCtx)) = [2] := by
  have hreach : Reach {} (sampleSteps.foldl exec {}) := by
    simp only [sampleSteps, List.foldl_cons, List.foldl_nil]
    refine .step _ (.step _ (.step _ (.step _ .init ?_) ?_) ?_) ?_
    all_goals decide
  obtain ⟨horder, haccount, -, -, -, -, hcancel, -⟩ :=
    eloop_timeouts {} ⟨rfl, rfl, rfl, rfl⟩ hreach
  exact ⟨by decide, horder, haccount, by decide, hcancel 5 eloopAllCtx eloopAllCtx, by decide, by decide⟩

end WpaSupplicant.Eloop

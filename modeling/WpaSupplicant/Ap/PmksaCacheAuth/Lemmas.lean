import WpaSupplicant.Ap.ValidateIe
import Mathlib.Data.List.Nodup

namespace WpaSupplicant.Ap.Pmksa

open Lib.HashChain Lib.SortedList

variable {a a' : Auth} {e : Entry}

-- The list and the chains hold the same entries, and what refers to an entry finds it there.
structure CacheInv (a : Auth) : Prop where
  chained : Chained Entry.hash a.cache.pmksa a.cache.pmkid
  ptrs : (a.cache.pmksa.map Entry.ptr).Nodup
  sorted : SortedBy Entry.expiration a.cache.pmksa
  count : a.cache.pmksaCount = a.cache.pmksa.length
  sms : ∀ addr sm p, a.sms addr = some sm → sm.pmksa = some p → ∃ e ∈ a.cache.pmksa, e.ptr = p

namespace CacheInv

theorem ptr_inj (h : CacheInv a) {e e' : Entry} (he : e ∈ a.cache.pmksa) (he' : e' ∈ a.cache.pmksa)
    (hptr : e.ptr = e'.ptr) : e = e' := List.inj_on_of_nodup_map h.ptrs he he' hptr

theorem nodup (h : CacheInv a) : a.cache.pmksa.Nodup := List.Nodup.of_map _ h.ptrs

theorem eraseP_eq (h : CacheInv a) (he : e ∈ a.cache.pmksa) :
    (a.cache.pmksa.eraseP fun pos => pos.ptr = e.ptr) =
      a.cache.pmksa.filter fun pos => !decide (pos.ptr = e.ptr) := by
  refine eraseP_eq_filter (a := e) h.nodup fun b hb hp => ?_
  exact h.ptr_inj hb he (by simpa using hp)

theorem free (h : CacheInv a) (he : e ∈ a.cache.pmksa) : CacheInv (pmksaCacheFreeEntry a e) := by
  have herase := h.eraseP_eq he
  have hone : ∀ b ∈ a.cache.pmksa, decide (b.ptr = e.ptr) = true → b = e :=
    fun b hb hp => h.ptr_inj hb he (by simpa using hp)
  have hsub : (a.cache.pmksa.eraseP fun pos => pos.ptr = e.ptr).Sublist a.cache.pmksa :=
    List.eraseP_sublist
  refine ⟨?_, ?_, ?_, ?_, ?_⟩
  · show Chained Entry.hash (a.cache.pmksa.eraseP _) (eraseChain a.cache.pmkid e.hash _)
    rw [herase]
    exact h.chained.erase h.nodup hone
  · exact h.ptrs.sublist (hsub.map _)
  · exact h.sorted.of_sublist hsub
  · show a.cache.pmksaCount - 1 = (a.cache.pmksa.eraseP _).length
    have hlen := List.length_eraseP_of_mem (p := fun pos : Entry => decide (pos.ptr = e.ptr)) he
      (by simp)
    have hpos : 0 < a.cache.pmksa.length := List.length_pos_of_mem he
    rw [hlen, h.count]
    omega
  · intro addr sm p hsm hp
    obtain ⟨sm₀, hsm₀, rfl⟩ := Option.map_eq_some_iff.mp hsm
    -- the reference to the entry that is freed is cleared
    have hkept : sm₀.pmksa = some p ∧ p ≠ e.ptr := by
      rw [wpaAuthPmksaClearCb] at hp
      split at hp
      · cases hp
      · rename_i hne
        exact ⟨hp, fun heq => hne (heq ▸ hp)⟩
    obtain ⟨e', he', rfl⟩ := h.sms addr sm₀ p hsm₀ hkept.1
    refine ⟨e', ?_, rfl⟩
    show e' ∈ a.cache.pmksa.eraseP _
    rw [herase, List.mem_filter]
    exact ⟨he', by simpa using hkept.2⟩

theorem link (h : CacheInv a) (hfresh : ∀ e' ∈ a.cache.pmksa, e'.ptr ≠ e.ptr) :
    CacheInv { a with cache := pmksaCacheLinkEntry a.cache e } := by
  have hperm : (insertBy Entry.expiration e a.cache.pmksa).Perm (e :: a.cache.pmksa) :=
    insertBy_perm _ _ _
  refine ⟨h.chained.insert hperm, ?_, h.sorted.insertBy e, ?_, ?_⟩
  · refine ((hperm.map Entry.ptr).nodup_iff).mpr (List.nodup_cons.mpr ⟨fun hmem => ?_, h.ptrs⟩)
    obtain ⟨e', he', hptr⟩ := List.mem_map.mp hmem
    exact hfresh e' he' hptr
  · show a.cache.pmksaCount + 1 = (insertBy Entry.expiration e a.cache.pmksa).length
    rw [hperm.length_eq, h.count]
    simp
  · intro addr sm p hsm hp
    obtain ⟨e', he', hptr⟩ := h.sms addr sm p hsm hp
    exact ⟨e', hperm.mem_iff.2 (List.mem_cons_of_mem e he'), hptr⟩

theorem free_pmksa (h : CacheInv a) (he : e ∈ a.cache.pmksa) :
    (pmksaCacheFreeEntry a e).cache.pmksa.Sublist a.cache.pmksa ∧
      ((pmksaCacheFreeEntry a e).cache.pmksa.length : ℤ) = a.cache.pmksa.length - 1 := by
  have hcount : (pmksaCacheFreeEntry a e).cache.pmksaCount = a.cache.pmksaCount - 1 := rfl
  rw [(h.free he).count, h.count] at hcount
  exact ⟨List.eraseP_sublist, hcount⟩

end CacheInv

structure Shrinks (a a' : Auth) : Prop where
  inv : CacheInv a'
  sublist : a'.cache.pmksa.Sublist a.cache.pmksa
  conf : a'.conf = a.conf

theorem Shrinks.refl (h : CacheInv a) : Shrinks a a := ⟨h, .refl _, rfl⟩

theorem Shrinks.trans {a'' : Auth} (h : Shrinks a a') (h' : Shrinks a' a'') : Shrinks a a'' :=
  ⟨h'.inv, h'.sublist.trans h.sublist, h'.conf.trans h.conf⟩

theorem Shrinks.free (h : CacheInv a) (he : e ∈ a.cache.pmksa) :
    Shrinks a (pmksaCacheFreeEntry a e) := ⟨h.free he, (h.free_pmksa he).1, rfl⟩

theorem pmksaCacheFreeEntry_head (h : CacheInv a) {next : List Entry}
    (hlist : a.cache.pmksa = e :: next) :
    pmksaCacheFreeEntry { a with cache := { a.cache with pmksa := next } } e =
      pmksaCacheFreeEntry a e := by
  have hnone : next.eraseP (fun pos => pos.ptr = e.ptr) = next := by
    refine List.eraseP_of_forall_not fun e' he' hp => ?_
    have hnodup := h.ptrs
    rw [hlist, List.map_cons] at hnodup
    have hptr : e'.ptr = e.ptr := by simpa using hp
    exact (List.nodup_cons.mp hnodup).1 (List.mem_map.mpr ⟨e', he', hptr⟩)
  have hfirst : a.cache.pmksa.eraseP (fun pos => pos.ptr = e.ptr) = next := by
    rw [hlist, List.eraseP_cons_of_pos (by simp)]
  simp only [pmksaCacheFreeEntry, wpaAuthPmksaFreeCb, hnone, hfirst]

theorem expireEntries_shrinks (now : ℤ) (h : CacheInv a) : Shrinks a (expireEntries now a.cache.pmksa a) := by
  generalize hlist : a.cache.pmksa = l
  induction l generalizing a with
  | nil => exact .refl h
  | cons e next ih =>
    rw [expireEntries]
    by_cases hexp : e.expiration ≤ now
    · have he : e ∈ a.cache.pmksa := by simp [hlist]
      have hnext : (pmksaCacheFreeEntry a e).cache.pmksa = next := by
        show a.cache.pmksa.eraseP _ = next
        rw [hlist, List.eraseP_cons_of_pos (by simp)]
      rw [if_pos hexp, pmksaCacheFreeEntry_head h hlist]
      exact (Shrinks.free h he).trans (ih (h.free he) hnext)
    · rw [if_neg hexp]
      exact .refl h

theorem pmksaCacheSetExpiration_pmksa (now : ℤ) (c : Cache) :
    (pmksaCacheSetExpiration now c).pmksa = c.pmksa ∧
      (pmksaCacheSetExpiration now c).pmkid = c.pmkid ∧
      (pmksaCacheSetExpiration now c).pmksaCount = c.pmksaCount := by
  rw [pmksaCacheSetExpiration]
  split <;> exact ⟨rfl, rfl, rfl⟩

theorem pmksaCacheExpire_shrinks (now : ℤ) (h : CacheInv a) : Shrinks a (pmksaCacheExpire now a) := by
  obtain ⟨hinv, hsub, hconf⟩ := expireEntries_shrinks now h
  obtain ⟨hpmksa, hpmkid, hcount⟩ :=
    pmksaCacheSetExpiration_pmksa now (expireEntries now a.cache.pmksa a).cache
  rw [pmksaCacheExpire]
  refine ⟨⟨?_, ?_, ?_, ?_, ?_⟩, ?_, hconf⟩
  · simpa only [hpmksa, hpmkid] using hinv.chained
  · simpa only [hpmksa] using hinv.ptrs
  · simpa only [hpmksa] using hinv.sorted
  · simpa only [hpmksa, hcount] using hinv.count
  · simpa only [hpmksa] using hinv.sms
  · simpa only [hpmksa] using hsub

section Get

variable {spa : Option Addr} {pmkid : Option (BitVec 128)}

theorem pmksaCacheAuthGet_isSome (h : CacheInv a) :
    (pmksaCacheAuthGet a.cache spa pmkid).isSome ↔ ∃ e ∈ a.cache.pmksa, e.isFor spa pmkid := by
  cases pmkid with
  | none => exact List.find?_isSome
  | some id =>
    rw [pmksaCacheAuthGet, List.find?_isSome]
    constructor
    · rintro ⟨e, he, hfor⟩
      exact ⟨e, (h.chained.mem_iff.1 he).1, hfor⟩
    · rintro ⟨e, he, hfor⟩
      refine ⟨e, h.chained.mem_iff.2 ⟨he, ?_⟩, hfor⟩
      have hid : id = e.pmkid := by
        simp only [Entry.isFor, Option.isNone_some, Bool.false_or, Bool.and_eq_true,
          decide_eq_true_eq, Option.some.injEq] at hfor
        exact hfor.2
      rw [Entry.hash, hid]

theorem pmksaCacheAuthGet_mem (h : CacheInv a) (hget : pmksaCacheAuthGet a.cache spa pmkid = some e) :
    e ∈ a.cache.pmksa ∧ e.isFor spa pmkid = true := by
  cases pmkid with
  | none => exact ⟨List.mem_of_find?_eq_some hget, List.find?_some hget⟩
  | some id => exact ⟨(h.chained.mem_iff.1 (List.mem_of_find?_eq_some hget)).1, List.find?_some hget⟩

end Get

theorem replaceOld_shrinks (h : CacheInv a) (spa : Addr) : Shrinks a (replaceOld a spa) := by
  rw [replaceOld]
  split
  · rename_i pos hget
    exact .free h (pmksaCacheAuthGet_mem h hget).1
  · exact .refl h

theorem makeRoom_shrinks (h : CacheInv a) : Shrinks a (makeRoom a) := by
  rw [makeRoom]
  split
  · exact .refl h
  rename_i oldest next hlist
  split
  · exact .free h (by simp [hlist])
  · exact .refl h

theorem makeRoom_length (h : CacheInv a) (hlen : (a.cache.pmksa.length : ℤ) ≤ pmksaCacheMaxEntries) :
    ((makeRoom a).cache.pmksa.length : ℤ) < pmksaCacheMaxEntries := by
  rw [makeRoom]
  split
  · rename_i hnil
    rw [hnil]
    decide
  rename_i oldest next hlist
  split
  · rw [(h.free_pmksa (by simp [hlist])).2]
    omega
  rename_i hroom
  rw [h.count] at hroom
  omega

end WpaSupplicant.Ap.Pmksa

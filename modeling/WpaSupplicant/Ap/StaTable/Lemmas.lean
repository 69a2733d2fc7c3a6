import WpaSupplicant.Lib.Machine
import WpaSupplicant.Ap.StaTable

namespace WpaSupplicant.Ap

open Lib.Bitmap

variable {δ : Type} {h h' : Hapd δ} {sta : StaPtr} {addr : Addr}

theorem StaInv.of_same (hinv : StaInv h) (hconf : h'.conf = h.conf) (hnext : h'.next = h.next)
    (hlist : h'.staList = h.staList) (hnum : h'.numSta = h.numSta) (hhash : h'.staHash = h.staHash)
    (haid : h'.staAid = h.staAid)
    (hmem : ∀ p, (h'.mem p).map (fun s => (s.addr, s.aid)) =
      (h.mem p).map (fun s => (s.addr, s.aid)))
    (htimers : ∀ t ∈ h'.timers, ∃ s, h.mem t.sta = some s) : StaInv h' := by
  have hback {p : StaPtr} {s : StaInfo δ} (hs : h'.mem p = some s) :
      ∃ t, h.mem p = some t ∧ t.addr = s.addr ∧ t.aid = s.aid := by
    have heq := hmem p
    rw [hs, Option.map_some, eq_comm, Option.map_eq_some_iff] at heq
    obtain ⟨t, ht, hpair⟩ := heq
    exact ⟨t, ht, (Prod.mk.inj hpair).1, (Prod.mk.inj hpair).2⟩
  have hforth {p : StaPtr} {s : StaInfo δ} (hs : h.mem p = some s) :
      ∃ t, h'.mem p = some t ∧ t.addr = s.addr ∧ t.aid = s.aid := by
    have heq := hmem p
    rw [hs, Option.map_some, Option.map_eq_some_iff] at heq
    obtain ⟨t, ht, hpair⟩ := heq
    exact ⟨t, ht, (Prod.mk.inj hpair).1, (Prod.mk.inj hpair).2⟩
  constructor
  · intro p hp
    rw [hnext] at hp
    have heq := hmem p
    rw [hinv.fresh p hp] at heq
    simpa using heq
  · intro p
    rw [hlist, hinv.list p]
    constructor
    · rintro ⟨s, hs⟩
      obtain ⟨t, ht, -⟩ := hforth hs
      exact ⟨t, ht⟩
    · rintro ⟨s, hs⟩
      obtain ⟨t, ht, -⟩ := hback hs
      exact ⟨t, ht⟩
  · rw [hlist]
    exact hinv.listNodup
  · intro b p
    rw [hhash, hinv.hash b p]
    constructor
    · rintro ⟨s, hs, hb⟩
      obtain ⟨t, ht, haddr, -⟩ := hforth hs
      exact ⟨t, ht, haddr ▸ hb⟩
    · rintro ⟨s, hs, hb⟩
      obtain ⟨t, ht, haddr, -⟩ := hback hs
      exact ⟨t, ht, haddr ▸ hb⟩
  · intro b
    rw [hhash]
    exact hinv.hashNodup b
  · intro p q s t hs ht heq
    obtain ⟨s', hs', hsa, -⟩ := hback hs
    obtain ⟨t', ht', hta, -⟩ := hback ht
    exact hinv.addrUnique p q s' t' hs' ht' (by rw [hsa, hta, heq])
  · rw [hnum, hlist]
    exact hinv.count
  · rw [hnum, hconf]
    exact hinv.bound
  · intro p s hs
    obtain ⟨s', hs', -, haid'⟩ := hback hs
    exact haid' ▸ hinv.aidRange p s' hs'
  · intro p q s t hs ht heq hne
    obtain ⟨s', hs', -, hsa⟩ := hback hs
    obtain ⟨t', ht', -, hta⟩ := hback ht
    exact hinv.aidUnique p q s' t' hs' ht' (by rw [hsa, hta, heq]) (by rwa [hsa])
  · intro n
    rw [haid, hinv.aidBits n]
    constructor
    · rintro ⟨p, s, hs, hn⟩
      obtain ⟨t, ht, -, hta⟩ := hforth hs
      exact ⟨p, t, ht, hta.trans hn⟩
    · rintro ⟨p, s, hs, hn⟩
      obtain ⟨t, ht, -, hta⟩ := hback hs
      exact ⟨p, t, ht, hta.trans hn⟩
  · intro t ht
    obtain ⟨s, hs⟩ := htimers t ht
    obtain ⟨u, hu, -⟩ := hforth hs
    exact ⟨u, hu⟩

theorem StaInv.modify (hinv : StaInv h) (f : StaInfo δ → StaInfo δ)
    (hf : ∀ s, (f s).addr = s.addr ∧ (f s).aid = s.aid) : StaInv (h.modify sta f) := by
  refine hinv.of_same rfl rfl rfl rfl rfl rfl (fun p => ?_) hinv.timers
  by_cases hp : p = sta
  · subst hp
    simp only [Hapd.modify, Function.update_self]
    cases h.mem p with
    | none => rfl
    | some s => simp [hf s]
  · simp only [Hapd.modify, Function.update_of_ne hp]

theorem mem_modify (f : StaInfo δ → StaInfo δ) :
    (∃ s, (h.modify sta f).mem sta = some s) ↔ ∃ s, h.mem sta = some s := by
  simp only [Hapd.modify, Function.update_self]
  cases h.mem sta <;> simp

theorem StaInv.arm (hinv : StaInv h) (handler : Handler) (hsta : ∃ s, h.mem sta = some s) :
    StaInv (h.arm handler sta) := by
  refine hinv.of_same rfl rfl rfl rfl rfl rfl (fun _ => rfl) ?_
  intro t ht
  rcases List.mem_cons.mp ht with rfl | ht
  · exact hsta
  · exact hinv.timers t ht

theorem StaInv.cancel (hinv : StaInv h) (handler : Handler) : StaInv (h.cancel handler sta) :=
  hinv.of_same rfl rfl rfl rfl rfl rfl (fun _ => rfl) fun t ht =>
    hinv.timers t (List.mem_filter.mp ht).1

theorem StaInv.modify_arm (hinv : StaInv h) (f : StaInfo δ → StaInfo δ)
    (hf : ∀ s, (f s).addr = s.addr ∧ (f s).aid = s.aid) (handler : Handler)
    (hsta : ∃ s, h.mem sta = some s) : StaInv ((h.modify sta f).arm handler sta) :=
  (hinv.modify f hf).arm handler ((mem_modify f).mpr hsta)

theorem StaInv.modify_cancel (hinv : StaInv h) (f : StaInfo δ → StaInfo δ)
    (hf : ∀ s, (f s).addr = s.addr ∧ (f s).aid = s.aid) (handler : Handler) :
    StaInv ((h.modify sta f).cancel handler sta) := (hinv.modify f hf).cancel handler

theorem StaInv.rearm (hinv : StaInv h) (handler : Handler) (hsta : ∃ s, h.mem sta = some s) :
    StaInv (h.rearm handler sta) := (hinv.cancel handler).arm handler hsta

theorem StaInv.erase (hinv : StaInv h) (t : StaTimer) :
    StaInv { h with timers := h.timers.erase t } :=
  hinv.of_same rfl rfl rfl rfl rfl rfl (fun _ => rfl) fun u hu =>
    hinv.timers u (List.mem_of_mem_erase hu)

theorem StaInv.apGetSta_eq_some (hinv : StaInv h) :
    apGetSta h addr = some sta ↔ ∃ s, h.mem sta = some s ∧ s.addr = addr := by
  constructor
  · intro hget
    have haddr : h.addrOf sta = some addr := by simpa using List.find?_some hget
    obtain ⟨s, hs, hsa⟩ := Option.map_eq_some_iff.mp haddr
    exact ⟨s, hs, hsa⟩
  · rintro ⟨s, hs, rfl⟩
    have hchain : sta ∈ h.staHash (staHashIndex s.addr) := (hinv.hash _ _).mpr ⟨s, hs, rfl⟩
    have hself : h.addrOf sta = some s.addr := by simp [Hapd.addrOf, hs]
    cases hget : apGetSta h s.addr with
    | none =>
      have hnone := List.find?_eq_none.mp hget sta hchain
      simp [hself] at hnone
    | some q =>
      have haddr : h.addrOf q = some s.addr := by simpa using List.find?_some hget
      obtain ⟨t, ht, hta⟩ := Option.map_eq_some_iff.mp haddr
      rw [hinv.addrUnique q sta t s ht hs hta]

theorem StaInv.apGetSta_eq_none (hinv : StaInv h) :
    apGetSta h addr = none ↔ ∀ p s, h.mem p = some s → s.addr ≠ addr := by
  rw [Option.eq_none_iff_forall_ne_some]
  constructor
  · intro hnone p s hs haddr
    exact hnone p (hinv.apGetSta_eq_some.2 ⟨s, hs, haddr⟩)
  · intro hno p hget
    obtain ⟨s, hs, haddr⟩ := hinv.apGetSta_eq_some.1 hget
    exact hno p s hs haddr

section Free

variable {s : StaInfo δ}

theorem apFreeSta_mem (hs : h.mem sta = some s) :
    (apFreeSta h sta).mem = Function.update h.mem sta none := by
  simp only [apFreeSta, hs, Hapd.cancel, apStaListDel, apStaHashDel]
  split <;> rfl

theorem apFreeSta_staList (hs : h.mem sta = some s) :
    (apFreeSta h sta).staList = h.staList.erase sta := by
  simp only [apFreeSta, hs, Hapd.cancel, apStaListDel, apStaHashDel]
  split <;> rfl

theorem apFreeSta_staHash (hs : h.mem sta = some s) :
    (apFreeSta h sta).staHash = Function.update h.staHash (staHashIndex s.addr)
      ((h.staHash (staHashIndex s.addr)).eraseP fun q => h.addrOf q = some s.addr) := by
  simp only [apFreeSta, hs, Hapd.cancel, apStaListDel, apStaHashDel]
  split <;> rfl

theorem apFreeSta_staAid (hs : h.mem sta = some s) :
    (apFreeSta h sta).staAid = if 0 < s.aid then clearBit h.staAid (s.aid - 1) else h.staAid := by
  simp only [apFreeSta, hs, Hapd.cancel, apStaListDel, apStaHashDel]
  split <;> rfl

theorem apFreeSta_rest (hs : h.mem sta = some s) :
    (apFreeSta h sta).conf = h.conf ∧ (apFreeSta h sta).next = h.next ∧
      (apFreeSta h sta).numSta = h.numSta - 1 := by
  simp only [apFreeSta, hs, Hapd.cancel, apStaListDel, apStaHashDel]
  split <;> simp only [and_self]

theorem mem_timers_apFreeSta {t : StaTimer} (hs : h.mem sta = some s)
    (ht : t ∈ (apFreeSta h sta).timers) : t ∈ h.timers ∧ t.sta ≠ sta := by
  have hmem : t ∈ h.timers ∧ ∀ handler, t ≠ ⟨handler, sta⟩ := by
    simp only [apFreeSta, hs] at ht
    split at ht <;>
    · simp only [Hapd.cancel, List.mem_filter, decide_eq_true_eq] at ht
      obtain ⟨⟨⟨⟨⟨hold, h₁⟩, h₂⟩, h₃⟩, h₄⟩, h₅⟩ := ht
      refine ⟨hold, fun handler => ?_⟩
      cases handler <;> assumption
  refine ⟨hmem.1, fun hsta => hmem.2 t.handler ?_⟩
  cases t
  simp_all

theorem eraseP_eq_erase {α : Type} [DecidableEq α] (p : α → Bool) (a : α) (l : List α)
    (hp : ∀ x ∈ l, p x = true ↔ x = a) : l.eraseP p = l.erase a := by
  induction l with
  | nil => rfl
  | cons x l ih =>
    have hx := hp x (by simp)
    by_cases hxa : x = a
    · subst hxa
      rw [List.eraseP_cons_of_pos (hx.mpr rfl), List.erase_cons_head]
    have hfalse : ¬ p x = true := fun h => hxa (hx.mp h)
    rw [List.eraseP_cons_of_neg hfalse, List.erase_cons_tail (by simpa using hxa),
      ih fun y hy => hp y (List.mem_cons_of_mem x hy)]

-- The first entry of the chain with the address of a station is that station.
theorem StaInv.hashDel (hinv : StaInv h) (hs : h.mem sta = some s) :
    ((h.staHash (staHashIndex s.addr)).eraseP fun q => h.addrOf q = some s.addr) =
      (h.staHash (staHashIndex s.addr)).erase sta := by
  refine eraseP_eq_erase _ sta _ fun q _ => ?_
  rw [decide_eq_true_eq]
  constructor
  · intro haddr
    obtain ⟨t, ht, hta⟩ := Option.map_eq_some_iff.mp haddr
    exact hinv.addrUnique q sta t s ht hs hta
  · rintro rfl
    simp [Hapd.addrOf, hs]

theorem mem_update_none {p : StaPtr} {t : StaInfo δ} :
    Function.update h.mem sta none p = some t ↔ p ≠ sta ∧ h.mem p = some t := by
  by_cases hp : p = sta
  · subst hp
    simp
  · simp [hp]

theorem StaInv.apFreeSta (hinv : StaInv h) : StaInv (apFreeSta h sta) := by
  cases hs : h.mem sta with
  | none =>
    have heq : Ap.apFreeSta h sta = h := by simp only [Ap.apFreeSta, hs]
    rw [heq]
    exact hinv
  | some s =>
    obtain ⟨hconf, hnext, hnum⟩ := apFreeSta_rest hs
    have hmem {p : StaPtr} {t : StaInfo δ} :
        (Ap.apFreeSta h sta).mem p = some t ↔ p ≠ sta ∧ h.mem p = some t := by
      rw [apFreeSta_mem hs]
      exact mem_update_none
    have hin : sta ∈ h.staList := (hinv.list sta).mpr ⟨s, hs⟩
    constructor
    · intro p hp
      rw [hnext] at hp
      rw [apFreeSta_mem hs]
      by_cases hps : p = sta
      · rw [hps, Function.update_self]
      · rw [Function.update_of_ne hps]
        exact hinv.fresh p hp
    · intro p
      rw [apFreeSta_staList hs, hinv.listNodup.mem_erase_iff, hinv.list p]
      simp only [hmem]
      tauto
    · rw [apFreeSta_staList hs]
      exact hinv.listNodup.erase sta
    · intro b p
      rw [apFreeSta_staHash hs, hinv.hashDel hs]
      simp only [hmem]
      by_cases hb : b = staHashIndex s.addr
      · subst hb
        rw [Function.update_self, (hinv.hashNodup _).mem_erase_iff, hinv.hash]
        tauto
      rw [Function.update_of_ne hb, hinv.hash]
      -- the station itself is in another chain
      constructor
      · rintro ⟨t, ht, htb⟩
        refine ⟨t, ⟨?_, ht⟩, htb⟩
        rintro rfl
        rw [hs] at ht
        cases ht
        exact hb htb.symm
      · rintro ⟨t, ⟨-, ht⟩, htb⟩
        exact ⟨t, ht, htb⟩
    · intro b
      rw [apFreeSta_staHash hs, hinv.hashDel hs]
      by_cases hb : b = staHashIndex s.addr
      · subst hb
        rw [Function.update_self]
        exact (hinv.hashNodup _).erase sta
      · rw [Function.update_of_ne hb]
        exact hinv.hashNodup b
    · intro p q t u ht hu haddr
      exact hinv.addrUnique p q t u (hmem.mp ht).2 (hmem.mp hu).2 haddr
    · rw [hnum, apFreeSta_staList hs, List.length_erase_of_mem hin, hinv.count]
      have hpos : 0 < h.staList.length := List.length_pos_of_mem hin
      omega
    · rw [hnum, hconf]
      have hbound := hinv.bound
      omega
    · intro p t ht
      exact hinv.aidRange p t (hmem.mp ht).2
    · intro p q t u ht hu haid hne
      exact hinv.aidUnique p q t u (hmem.mp ht).2 (hmem.mp hu).2 haid hne
    · intro n
      simp only [hmem, apFreeSta_staAid hs]
      have hbits := hinv.aidBits n
      -- the bit of the station is cleared, and no other station has its AID
      have hother (p : StaPtr) (t : StaInfo δ) (ht : h.mem p = some t) (htn : t.aid = n + 1)
          (hsn : s.aid = n + 1) : p = sta :=
        hinv.aidUnique p sta t s ht hs (by omega) (by omega)
      by_cases hsn : s.aid = n + 1
      · have hclear : bit (clearBit h.staAid (s.aid - 1)) n = false := by
          rw [bit_clearBit]
          simp [hsn]
        rw [if_pos (by omega), hclear]
        constructor
        · intro hfalse
          cases hfalse
        · rintro ⟨p, t, ⟨hne, ht⟩, htn⟩
          exact absurd (hother p t ht htn hsn) hne
      · have hsame : bit (if 0 < s.aid then clearBit h.staAid (s.aid - 1) else h.staAid) n =
            bit h.staAid n := by
          split
          · have hne : n ≠ s.aid - 1 := by omega
            simp [bit_clearBit, hne]
          · rfl
        rw [hsame, hbits]
        constructor
        · rintro ⟨p, t, ht, htn⟩
          refine ⟨p, t, ⟨?_, ht⟩, htn⟩
          rintro rfl
          rw [hs] at ht
          cases ht
          exact hsn htn
        · rintro ⟨p, t, ⟨-, ht⟩, htn⟩
          exact ⟨p, t, ht, htn⟩
    · intro t ht
      obtain ⟨hold, hne⟩ := mem_timers_apFreeSta hs ht
      obtain ⟨u, hu⟩ := hinv.timers t hold
      exact ⟨u, hmem.mpr ⟨hne, hu⟩⟩

theorem StaInv.hostapdFreeStas (hinv : StaInv h) : StaInv (hostapdFreeStas h) := by
  have hfold (l : List StaPtr) (h : Hapd δ) (hinv : StaInv h) :
      StaInv (l.foldl Ap.apFreeSta h) := by
    induction l generalizing h with
    | nil => exact hinv
    | cons sta l ih => exact ih _ hinv.apFreeSta
  exact hfold h.staList h hinv

end Free

theorem mem_update_some {p : StaPtr} {s t : StaInfo δ} :
    Function.update h.mem sta (some s) p = some t ↔
      (p = sta ∧ t = s) ∨ (p ≠ sta ∧ h.mem p = some t) := by
  by_cases hp : p = sta
  · subst hp
    simp [eq_comm]
  · simp [hp]

def insertSta (h : Hapd δ) (s : StaInfo δ) : Hapd δ :=
  { h with
    next := h.next + 1
    mem := Function.update h.mem h.next (some s)
    staList := h.next :: h.staList
    numSta := h.numSta + 1
    staHash := Function.update h.staHash (staHashIndex s.addr)
      (h.next :: h.staHash (staHashIndex s.addr))
    timers := ⟨.apHandleTimer, h.next⟩ :: h.timers }

theorem apStaAdd_cases [Inhabited δ] (h : Hapd δ) (addr : Addr) (alloc : Bool) :
    (∃ sta, apGetSta h addr = some sta ∧ apStaAdd h addr alloc = (h, some sta)) ∨
      (apGetSta h addr = none ∧ (h.conf.maxNumSta ≤ h.numSta ∨ alloc = false) ∧
        apStaAdd h addr alloc = (h, none)) ∨
      (apGetSta h addr = none ∧ h.numSta < h.conf.maxNumSta ∧
        apStaAdd h addr alloc = (insertSta h { addr := addr, ext := default }, some h.next)) := by
  cases hget : apGetSta h addr with
  | some sta => exact .inl ⟨sta, rfl, by simp only [apStaAdd, hget]⟩
  | none =>
    right
    by_cases hroom : h.conf.maxNumSta ≤ h.numSta
    · exact .inl ⟨rfl, .inl hroom, by simp only [apStaAdd, hget, hroom, if_true]⟩
    cases alloc with
    | false => exact .inl ⟨rfl, .inr rfl, by simp [apStaAdd, hget]⟩
    | true =>
      refine .inr ⟨rfl, by omega, ?_⟩
      simp only [apStaAdd, hget, hroom, if_false, Bool.not_true, Bool.false_eq_true,
        apStaHashAdd, Hapd.arm, insertSta]

theorem StaInv.insertSta {s : StaInfo δ} (hinv : StaInv h)
    (hno : ∀ p t, h.mem p = some t → t.addr ≠ s.addr) (hroom : h.numSta < h.conf.maxNumSta)
    (haid : s.aid = 0) : StaInv (insertSta h s) := by
  have hnew : h.mem h.next = none := hinv.fresh h.next le_rfl
  have hold {p : StaPtr} {t : StaInfo δ} (ht : h.mem p = some t) : p ≠ h.next := by
    rintro rfl
    rw [hnew] at ht
    cases ht
  have hmem {p : StaPtr} {t : StaInfo δ} : (Ap.insertSta h s).mem p = some t ↔
      (p = h.next ∧ t = s) ∨ (p ≠ h.next ∧ h.mem p = some t) := mem_update_some
  constructor
  · intro p hp
    have hlt : h.next < p := hp
    show Function.update h.mem h.next (some s) p = none
    rw [Function.update_of_ne hlt.ne']
    exact hinv.fresh p hlt.le
  · intro p
    simp only [hmem]
    show p ∈ h.next :: h.staList ↔ _
    rw [List.mem_cons, hinv.list p]
    constructor
    · rintro (rfl | ⟨t, ht⟩)
      · exact ⟨s, .inl ⟨rfl, rfl⟩⟩
      · exact ⟨t, .inr ⟨hold ht, ht⟩⟩
    · rintro ⟨t, ⟨rfl, -⟩ | ⟨-, ht⟩⟩
      · exact .inl rfl
      · exact .inr ⟨t, ht⟩
  · refine List.nodup_cons.mpr ⟨fun hin => ?_, hinv.listNodup⟩
    obtain ⟨t, ht⟩ := (hinv.list _).mp hin
    exact hold ht rfl
  · intro b p
    simp only [hmem]
    show p ∈ Function.update h.staHash _ _ b ↔ _
    by_cases hb : b = staHashIndex s.addr
    · subst hb
      rw [Function.update_self, List.mem_cons, hinv.hash]
      constructor
      · rintro (rfl | ⟨t, ht, htb⟩)
        · exact ⟨s, .inl ⟨rfl, rfl⟩, rfl⟩
        · exact ⟨t, .inr ⟨hold ht, ht⟩, htb⟩
      · rintro ⟨t, ⟨rfl, -⟩ | ⟨-, ht⟩, htb⟩
        · exact .inl rfl
        · exact .inr ⟨t, ht, htb⟩
    · rw [Function.update_of_ne hb, hinv.hash]
      constructor
      · rintro ⟨t, ht, htb⟩
        exact ⟨t, .inr ⟨hold ht, ht⟩, htb⟩
      · rintro ⟨t, ⟨rfl, rfl⟩ | ⟨-, ht⟩, htb⟩
        · exact absurd htb.symm hb
        · exact ⟨t, ht, htb⟩
  · intro b
    show (Function.update h.staHash _ _ b).Nodup
    by_cases hb : b = staHashIndex s.addr
    · subst hb
      rw [Function.update_self]
      refine List.nodup_cons.mpr ⟨fun hin => ?_, hinv.hashNodup _⟩
      obtain ⟨t, ht, -⟩ := (hinv.hash _ _).mp hin
      exact hold ht rfl
    · rw [Function.update_of_ne hb]
      exact hinv.hashNodup b
  · intro p q t u ht hu haddr
    rcases hmem.mp ht with ⟨hp, rfl⟩ | ⟨-, ht'⟩
    · rcases hmem.mp hu with ⟨hq, -⟩ | ⟨-, hu'⟩
      · rw [hp, hq]
      · exact absurd haddr.symm (hno q u hu')
    · rcases hmem.mp hu with ⟨-, rfl⟩ | ⟨-, hu'⟩
      · exact absurd haddr (hno p t ht')
      · exact hinv.addrUnique p q t u ht' hu' haddr
  · show h.numSta + 1 = ((h.next :: h.staList).length : ℤ)
    rw [hinv.count, List.length_cons]
    omega
  · show h.numSta + 1 ≤ max 0 h.conf.maxNumSta
    omega
  · intro p t ht
    rcases hmem.mp ht with ⟨-, rfl⟩ | ⟨-, ht⟩
    · omega
    · exact hinv.aidRange p t ht
  · intro p q t u ht hu heq hne
    rcases hmem.mp ht with ⟨-, rfl⟩ | ⟨-, ht⟩
    · exact absurd haid hne
    rcases hmem.mp hu with ⟨-, rfl⟩ | ⟨-, hu⟩
    · omega
    · exact hinv.aidUnique p q t u ht hu heq hne
  · intro n
    simp only [hmem]
    refine (hinv.aidBits n).trans ?_
    constructor
    · rintro ⟨p, t, ht, htn⟩
      exact ⟨p, t, .inr ⟨hold ht, ht⟩, htn⟩
    · rintro ⟨p, t, ⟨-, rfl⟩ | ⟨-, ht⟩, htn⟩
      · omega
      · exact ⟨p, t, ht, htn⟩
  · intro t ht
    simp only [hmem]
    rcases List.mem_cons.mp ht with rfl | ht
    · exact ⟨s, .inl ⟨rfl, rfl⟩⟩
    · obtain ⟨u, hu⟩ := hinv.timers t ht
      exact ⟨u, .inr ⟨hold hu, hu⟩⟩

theorem StaInv.apStaAdd [Inhabited δ] {alloc : Bool} (hinv : StaInv h) :
    StaInv (apStaAdd h addr alloc).1 := by
  obtain ⟨sta, -, heq⟩ | ⟨-, -, heq⟩ | ⟨hget, hroom, heq⟩ := apStaAdd_cases h addr alloc
  · rw [heq]
    exact hinv
  · rw [heq]
    exact hinv
  · rw [heq]
    exact hinv.insertSta (hinv.apGetSta_eq_none.1 hget) hroom rfl

theorem StaInv.setAid {n : ℕ} (hinv : StaInv h) {s : StaInfo δ} (hs : h.mem sta = some s)
    (hzero : s.aid = 0) (hfree : bit h.staAid n = false) (hn : n + 1 ≤ 2007) :
    StaInv { h.modify sta (fun s => { s with aid := n + 1 }) with
      staAid := setBit h.staAid n } := by
  have hmem {p : StaPtr} {t : StaInfo δ} :
      (h.modify sta (fun s => { s with aid := n + 1 })).mem p = some t ↔
        (p = sta ∧ t = { s with aid := n + 1 }) ∨ (p ≠ sta ∧ h.mem p = some t) := by
    simp only [Hapd.modify, hs, Option.map_some]
    exact mem_update_some
  have hmem' {p : StaPtr} {t : StaInfo δ}
      (ht : (h.modify sta (fun s => { s with aid := n + 1 })).mem p = some t) :
      ∃ t', h.mem p = some t' ∧ t'.addr = t.addr := by
    rcases hmem.mp ht with ⟨rfl, rfl⟩ | ⟨-, ht⟩
    · exact ⟨s, hs, rfl⟩
    · exact ⟨t, ht, rfl⟩
  -- no other station has the AID
  have hnone {p : StaPtr} {t : StaInfo δ} (ht : h.mem p = some t) : t.aid ≠ n + 1 := by
    intro heq
    have hbit := (hinv.aidBits n).mpr ⟨p, t, ht, heq⟩
    rw [hfree] at hbit
    cases hbit
  have hexists {p : StaPtr} : (∃ t, (h.modify sta (fun s => { s with aid := n + 1 })).mem p =
      some t) ↔ ∃ t, h.mem p = some t := by
    simp only [Hapd.modify]
    by_cases hp : p = sta
    · subst hp
      simp [hs]
    · simp [hp]
  constructor
  · intro p hp
    have hold := hinv.fresh p hp
    have hne : p ≠ sta := by
      rintro rfl
      rw [hs] at hold
      cases hold
    show Function.update h.mem sta _ p = none
    rw [Function.update_of_ne hne]
    exact hold
  · intro p
    exact (hinv.list p).trans hexists.symm
  · exact hinv.listNodup
  · intro b p
    refine (hinv.hash b p).trans ?_
    constructor
    · rintro ⟨t, ht, htb⟩
      by_cases hp : p = sta
      · subst hp
        rw [hs] at ht
        cases ht
        exact ⟨_, hmem.mpr (.inl ⟨rfl, rfl⟩), htb⟩
      · exact ⟨t, hmem.mpr (.inr ⟨hp, ht⟩), htb⟩
    · rintro ⟨t, ht, htb⟩
      obtain ⟨t', ht', haddr⟩ := hmem' ht
      exact ⟨t', ht', haddr ▸ htb⟩
  · exact hinv.hashNodup
  · intro p q t u ht hu haddr
    obtain ⟨t', ht', hta⟩ := hmem' ht
    obtain ⟨u', hu', hua⟩ := hmem' hu
    exact hinv.addrUnique p q t' u' ht' hu' (by rw [hta, hua, haddr])
  · exact hinv.count
  · exact hinv.bound
  · intro p t ht
    rcases hmem.mp ht with ⟨-, rfl⟩ | ⟨-, ht⟩
    · exact hn
    · exact hinv.aidRange p t ht
  · intro p q t u ht hu haid hne
    rcases hmem.mp ht with ⟨rfl, rfl⟩ | ⟨-, ht⟩
    · rcases hmem.mp hu with ⟨rfl, -⟩ | ⟨-, hu⟩
      · rfl
      · exact absurd haid.symm (hnone hu)
    · rcases hmem.mp hu with ⟨-, rfl⟩ | ⟨-, hu⟩
      · exact absurd haid (hnone ht)
      · exact hinv.aidUnique p q t u ht hu haid hne
  · intro m
    show bit (setBit h.staAid n) m = true ↔ _
    rw [bit_setBit, Bool.or_eq_true, decide_eq_true_eq, hinv.aidBits m]
    constructor
    · rintro (rfl | ⟨p, t, ht, htm⟩)
      · exact ⟨sta, _, hmem.mpr (.inl ⟨rfl, rfl⟩), rfl⟩
      · refine ⟨p, t, hmem.mpr (.inr ⟨?_, ht⟩), htm⟩
        rintro rfl
        rw [hs] at ht
        cases ht
        omega
    · rintro ⟨p, t, ht, htm⟩
      rcases hmem.mp ht with ⟨-, rfl⟩ | ⟨-, ht⟩
      · exact .inl (by simpa using htm.symm)
      · exact .inr ⟨p, t, ht, htm⟩
  · intro t ht
    exact hexists.mpr (hinv.timers t ht)

theorem StaInv.hostapdGetAid (hinv : StaInv h) : StaInv (hostapdGetAid h sta).1 := by
  rw [Ap.hostapdGetAid]
  split
  · exact hinv
  rename_i s hs
  split
  · exact hinv
  rename_i hzero
  split
  · exact hinv
  rename_i n hclear
  dsimp only
  split
  · exact hinv
  · rename_i hn
    exact hinv.setAid hs (by omega) (firstClear_spec hclear).2 (by omega)

theorem StaInv.nextTimeout (hinv : StaInv h) (hsta : ∃ s, h.mem sta = some s)
    (next : TimeoutNext) : StaInv (nextTimeout h sta next) := by
  cases next with
  | nullfunc =>
    exact hinv.modify_arm _ (by simp) _ hsta
  | disassoc =>
    exact hinv.modify_arm _ (by simp) _ hsta
  | deauth => exact hinv.apFreeSta
  | remove => exact hinv.apFreeSta

variable {inactiveSec : ℤ} {now : OsTime} {alloc : Bool}

theorem StaInv.apHandleTimer (hinv : StaInv h) : StaInv (apHandleTimer h sta inactiveSec) := by
  rw [Ap.apHandleTimer]
  split
  · exact hinv
  rename_i s hs
  split
  · exact hinv.apFreeSta
  dsimp only
  have hsta : ∃ s, h.mem sta = some s := ⟨s, hs⟩
  split
  · exact hinv.modify_arm _ (by simp) _ hsta
  · refine StaInv.nextTimeout ?_ ((mem_modify _).mpr hsta) _
    exact hinv.modify _ fun _ => ⟨rfl, rfl⟩

theorem StaInv.apHandleSessionTimer (hinv : StaInv h) : StaInv (apHandleSessionTimer h sta) := by
  rw [Ap.apHandleSessionTimer]
  split
  · exact hinv
  split
  · split
    · exact hinv.apFreeSta
    · exact hinv
  · exact hinv.apFreeSta

theorem StaInv.apCheckSaQueryTimeout (hinv : StaInv h) : StaInv (apCheckSaQueryTimeout h sta now).1 := by
  rw [Ap.apCheckSaQueryTimeout]
  split
  · exact hinv
  split
  · exact hinv.modify_cancel _ (by simp) _
  · exact hinv

theorem mem_apCheckSaQueryTimeout (hsta : ∃ s, h.mem sta = some s) :
    ∃ s, (apCheckSaQueryTimeout h sta now).1.mem sta = some s := by
  rw [Ap.apCheckSaQueryTimeout]
  split
  · exact hsta
  split
  · exact (mem_modify _).mpr hsta
  · exact hsta

theorem StaInv.apSaQueryTimer (hinv : StaInv h) : StaInv (apSaQueryTimer h sta now alloc) := by
  rw [Ap.apSaQueryTimer]
  split
  · exact hinv
  rename_i s hs
  -- the procedure may have timed out
  generalize hr : (if 0 < s.saQueryCount then Ap.apCheckSaQueryTimeout h sta now else (h, false)) =
    r
  have hrinv : StaInv r.1 ∧ ∃ s, r.1.mem sta = some s := by
    rw [← hr]
    split
    · exact ⟨hinv.apCheckSaQueryTimeout, mem_apCheckSaQueryTimeout ⟨s, hs⟩⟩
    · exact ⟨hinv, s, hs⟩
  dsimp only
  split
  · exact hrinv.1
  split
  · exact hrinv.1
  · exact hrinv.1.modify_arm _ (by simp) _ hrinv.2

theorem StaInv.fireTimer {t : StaTimer} (hinv : StaInv h) : StaInv (fireTimer h t inactiveSec now alloc) := by
  rw [Ap.fireTimer]
  cases t.handler with
  | apHandleTimer => exact hinv.apHandleTimer
  | apHandleSessionTimer => exact hinv.apHandleSessionTimer
  | apStaDeauthCbTimeout => exact hinv
  | apStaDisassocCbTimeout => exact hinv
  | apSaQueryTimer => exact hinv.apSaQueryTimer

theorem StaInv.withSta {f : StaPtr → Hapd δ} (hinv : StaInv h)
    (hf : ∀ sta, (∃ s, h.mem sta = some s) → StaInv (f sta)) : StaInv (withSta h addr f) := by
  rw [Ap.withSta]
  split
  · exact hinv
  rename_i sta hget
  obtain ⟨s, hs, -⟩ := hinv.apGetSta_eq_some.1 hget
  exact hf sta ⟨s, hs⟩

theorem StaInv.staExec [Inhabited δ] (hinv : StaInv h) (op : StaOp) : StaInv (staExec h op) := by
  cases op with
  | add addr alloc => exact hinv.apStaAdd
  | assoc addr => exact hinv.withSta fun _ _ => hinv.hostapdGetAid
  | free addr => exact hinv.withSta fun _ _ => hinv.apFreeSta
  | freeStas => exact hinv.hostapdFreeStas
  | change addr flags timeoutNext =>
    exact hinv.withSta fun _ _ => hinv.modify _ fun _ => ⟨rfl, rfl⟩
  | rearm addr => exact hinv.withSta fun _ hsta => hinv.rearm _ hsta
  | sessionTimeout addr => exact hinv.withSta fun _ hsta => hinv.rearm _ hsta
  | noSessionTimeout addr => exact hinv.withSta fun _ _ => hinv.cancel _
  | disassociate addr =>
    refine hinv.withSta fun sta hsta => ?_
    have hmod : StaInv (h.modify sta fun s =>
        { s with
          flags :=
            { s.flags with assoc := false, authorized := false, pendingDisassocCb := true }
          timeoutNext := .deauth }) := hinv.modify _ (by simp)
    exact (hmod.rearm _ ((mem_modify _).mpr hsta)).rearm _ ((mem_modify _).mpr hsta)
  | deauthenticate addr =>
    refine hinv.withSta fun sta hsta => ?_
    have hmod : StaInv (h.modify sta fun s =>
        { s with
          flags :=
            { s.flags with
              auth := false, assoc := false, authorized := false, pendingDeauthCb := true }
          timeoutNext := .remove }) := hinv.modify _ (by simp)
    exact (hmod.rearm _ ((mem_modify _).mpr hsta)).rearm _ ((mem_modify _).mpr hsta)
  | deauthCb addr =>
    refine hinv.withSta fun sta _ => ?_
    rw [apStaDeauthCb]
    split
    · exact hinv
    split
    · exact hinv
    · exact hinv.modify_cancel _ (by simp) _
  | disassocCb addr =>
    refine hinv.withSta fun sta _ => ?_
    rw [apStaDisassocCb]
    split
    · exact hinv
    split
    · exact hinv
    · exact hinv.modify_cancel _ (by simp) _
  | startSaQuery addr now alloc => exact hinv.withSta fun _ _ => hinv.apSaQueryTimer
  | checkSaQuery addr now => exact hinv.withSta fun _ _ => hinv.apCheckSaQueryTimeout
  | stopSaQuery addr =>
    exact hinv.withSta fun _ _ => (hinv.cancel _).modify _ fun _ => ⟨rfl, rfl⟩
  | fire t inactiveSec now alloc =>
    simp only [Ap.staExec]
    split
    · exact (hinv.erase t).fireTimer
    · exact hinv
  | lose t => exact hinv.erase t

theorem mem_modify_some {f : StaInfo δ → StaInfo δ} {p : StaPtr} {e' : StaInfo δ}
    (he' : (h.modify sta f).mem p = some e') : ∃ e, h.mem p = some e ∧ (e' = e ∨ e' = f e) := by
  by_cases hp : p = sta
  · subst hp
    simp only [Hapd.modify, Function.update_self] at he'
    obtain ⟨e, he, rfl⟩ := Option.map_eq_some_iff.mp he'
    exact ⟨e, he, .inr rfl⟩
  · simp only [Hapd.modify, Function.update_of_ne hp] at he'
    exact ⟨e', he', .inl rfl⟩

-- The entries that are still there have their address and their protection, and what the parts of
-- the access point keep with them.
def Keeps (h h' : Hapd δ) : Prop :=
  ∀ p e', h'.mem p = some e' →
    ∃ e, h.mem p = some e ∧ e'.addr = e.addr ∧ e'.ext = e.ext ∧ e'.flags.mfp = e.flags.mfp

theorem Keeps.refl (h : Hapd δ) : Keeps h h := fun _ e he => ⟨e, he, rfl, rfl, rfl⟩

theorem Keeps.trans {h'' : Hapd δ} (hk : Keeps h h') (hk' : Keeps h' h'') : Keeps h h'' := by
  intro p e'' he''
  obtain ⟨e', he', haddr', hext', hmfp'⟩ := hk' p e'' he''
  obtain ⟨e, he, haddr, hext, hmfp⟩ := hk p e' he'
  exact ⟨e, he, haddr'.trans haddr, hext'.trans hext, hmfp'.trans hmfp⟩

theorem Keeps.modify (f : StaInfo δ → StaInfo δ)
    (hf : ∀ e, (f e).addr = e.addr ∧ (f e).ext = e.ext ∧ (f e).flags.mfp = e.flags.mfp) :
    Keeps h (h.modify sta f) := by
  intro p e' he'
  obtain ⟨e, he, rfl | rfl⟩ := mem_modify_some he'
  · exact ⟨e', he, rfl, rfl, rfl⟩
  · exact ⟨e, he, hf e⟩

theorem Keeps.apFreeSta : Keeps h (apFreeSta h sta) := by
  cases hs : h.mem sta with
  | none =>
    have heq : Ap.apFreeSta h sta = h := by simp only [Ap.apFreeSta, hs]
    rw [heq]
    exact Keeps.refl h
  | some s =>
    intro p e' he'
    rw [apFreeSta_mem hs] at he'
    exact ⟨e', (mem_update_none.1 he').2, rfl, rfl, rfl⟩

theorem Keeps.hostapdFreeStas : Keeps h (hostapdFreeStas h) := by
  have hfold (l : List StaPtr) (h : Hapd δ) : Keeps h (l.foldl Ap.apFreeSta h) := by
    induction l generalizing h with
    | nil => exact Keeps.refl h
    | cons sta l ih => exact (Keeps.apFreeSta).trans (ih _)
  exact hfold h.staList h

theorem Keeps.withSta {f : StaPtr → Hapd δ} (hf : ∀ sta, Keeps h (f sta)) :
    Keeps h (withSta h addr f) := by
  rw [Ap.withSta]
  split
  · exact Keeps.refl h
  · exact hf _

theorem Keeps.hostapdGetAid : Keeps h (hostapdGetAid h sta).1 := by
  rw [Ap.hostapdGetAid]
  split
  · exact Keeps.refl h
  split
  · exact Keeps.refl h
  split
  · exact Keeps.refl h
  dsimp only
  split
  · exact Keeps.refl h
  · exact Keeps.modify _ (by simp)

theorem Keeps.nextTimeout (next : TimeoutNext) : Keeps h (nextTimeout h sta next) := by
  cases next with
  | nullfunc => exact Keeps.modify _ (by simp)
  | disassoc => exact Keeps.modify _ (by simp)
  | deauth => exact Keeps.apFreeSta
  | remove => exact Keeps.apFreeSta

theorem Keeps.apHandleTimer : Keeps h (apHandleTimer h sta inactiveSec) := by
  rw [Ap.apHandleTimer]
  split
  · exact Keeps.refl h
  split
  · exact Keeps.apFreeSta
  dsimp only
  split
  · exact Keeps.modify _ (by simp)
  · refine Keeps.trans ?_ (Keeps.nextTimeout _)
    exact Keeps.modify _ (by simp)

theorem Keeps.apHandleSessionTimer : Keeps h (apHandleSessionTimer h sta) := by
  rw [Ap.apHandleSessionTimer]
  split
  · exact Keeps.refl h
  split
  · split
    · exact Keeps.apFreeSta
    · exact Keeps.refl h
  · exact Keeps.apFreeSta

theorem Keeps.apCheckSaQueryTimeout : Keeps h (apCheckSaQueryTimeout h sta now).1 := by
  rw [Ap.apCheckSaQueryTimeout]
  split
  · exact Keeps.refl h
  split
  · exact Keeps.modify _ (by simp)
  · exact Keeps.refl h

theorem Keeps.apSaQueryTimer : Keeps h (apSaQueryTimer h sta now alloc) := by
  rw [Ap.apSaQueryTimer]
  split
  · exact Keeps.refl h
  rename_i s hs
  generalize hr : (if 0 < s.saQueryCount then Ap.apCheckSaQueryTimeout h sta now else (h, false)) =
    r
  have hrkeeps : Keeps h r.1 := by
    rw [← hr]
    split
    · exact Keeps.apCheckSaQueryTimeout
    · exact Keeps.refl h
  dsimp only
  split
  · exact hrkeeps
  split
  · exact hrkeeps
  · refine hrkeeps.trans ?_
    exact Keeps.modify _ (by simp)

theorem Keeps.fireTimer {t : StaTimer} : Keeps h (fireTimer h t inactiveSec now alloc) := by
  rw [Ap.fireTimer]
  cases t.handler with
  | apHandleTimer => exact Keeps.apHandleTimer
  | apHandleSessionTimer => exact Keeps.apHandleSessionTimer
  | apStaDeauthCbTimeout => exact Keeps.refl h
  | apStaDisassocCbTimeout => exact Keeps.refl h
  | apSaQueryTimer => exact Keeps.apSaQueryTimer

-- An entry that is there after a step is an old one, or a new one in which nothing is kept yet.
theorem staExec_entries [Inhabited δ] (hinv : StaInv h) (op : StaOp) (p : StaPtr) (e' : StaInfo δ)
    (he' : (staExec h op).mem p = some e') :
    (∃ e, h.mem p = some e ∧ e'.addr = e.addr ∧ e'.ext = e.ext) ∨
      (h.mem p = none ∧ e'.ext = default) := by
  have hkeeps (hk : Keeps h (staExec h op)) :
      (∃ e, h.mem p = some e ∧ e'.addr = e.addr ∧ e'.ext = e.ext) ∨
        (h.mem p = none ∧ e'.ext = default) := by
    obtain ⟨e, he, haddr, hext, -⟩ := hk p e' he'
    exact .inl ⟨e, he, haddr, hext⟩
  cases op with
  | add addr alloc =>
    obtain ⟨sta, -, heq⟩ | ⟨-, -, heq⟩ | ⟨-, -, heq⟩ := apStaAdd_cases h addr alloc
    · rw [staExec, heq] at he'
      exact .inl ⟨e', he', rfl, rfl⟩
    · rw [staExec, heq] at he'
      exact .inl ⟨e', he', rfl, rfl⟩
    rw [staExec, heq] at he'
    rcases mem_update_some.1 he' with ⟨rfl, rfl⟩ | ⟨-, hold⟩
    · exact .inr ⟨hinv.fresh _ le_rfl, rfl⟩
    · exact .inl ⟨e', hold, rfl, rfl⟩
  | assoc addr => exact hkeeps (Keeps.withSta fun _ => Keeps.hostapdGetAid)
  | free addr => exact hkeeps (Keeps.withSta fun _ => Keeps.apFreeSta)
  | freeStas => exact hkeeps Keeps.hostapdFreeStas
  | change addr flags timeoutNext =>
    rw [staExec, withSta] at he'
    split at he'
    · exact .inl ⟨e', he', rfl, rfl⟩
    obtain ⟨e, he, rfl | rfl⟩ := mem_modify_some he'
    · exact .inl ⟨e', he, rfl, rfl⟩
    · exact .inl ⟨e, he, rfl, rfl⟩
  | rearm addr | sessionTimeout addr | noSessionTimeout addr =>
    exact hkeeps (Keeps.withSta fun _ => Keeps.refl h)
  | disassociate addr | deauthenticate addr | stopSaQuery addr =>
    exact hkeeps (Keeps.withSta fun _ => Keeps.modify _ (by simp))
  | deauthCb addr =>
    refine hkeeps (Keeps.withSta fun sta => ?_)
    rw [apStaDeauthCb]
    split
    · exact Keeps.refl h
    split
    · exact Keeps.refl h
    · exact Keeps.modify _ (by simp)
  | disassocCb addr =>
    refine hkeeps (Keeps.withSta fun sta => ?_)
    rw [apStaDisassocCb]
    split
    · exact Keeps.refl h
    split
    · exact Keeps.refl h
    · exact Keeps.modify _ (by simp)
  | startSaQuery addr now alloc => exact hkeeps (Keeps.withSta fun _ => Keeps.apSaQueryTimer)
  | checkSaQuery addr now => exact hkeeps (Keeps.withSta fun _ => Keeps.apCheckSaQueryTimeout)
  | fire t inactiveSec now alloc =>
    simp only [staExec] at he'
    split at he'
    · obtain ⟨e, he, haddr, hext, -⟩ :=
        Keeps.fireTimer (h := { h with timers := h.timers.erase t }) p e' he'
      exact .inl ⟨e, he, haddr, hext⟩
    · exact .inl ⟨e', he', rfl, rfl⟩
  | lose t => exact hkeeps (Keeps.refl h)

end WpaSupplicant.Ap

namespace WpaSupplicant.Ap

open Lib.Bitmap Lib.Machine

variable {δ : Type}

def Hapd.initial (conf : BssConfig) : Hapd δ := { conf := conf }

theorem StaInv.initial (conf : BssConfig) : StaInv (Hapd.initial conf : Hapd δ) := by
  constructor <;> simp [Hapd.initial, bit]

-- In every state reached the list and the hash chains hold the same stations, no two of one address and
-- not more than the limit; the AIDs are from 1 to 2007, each of one station, as in the map; and every
-- timer that is armed is one of a station in the list.
theorem station_table [Inhabited δ] (conf : BssConfig) (h : Hapd δ)
    (hrun : Runs staExec (fun _ _ => True) (Hapd.initial conf) h) :
    (∀ b p, p ∈ h.staHash b ↔
        p ∈ h.staList ∧ ∃ s, h.mem p = some s ∧ staHashIndex s.addr = b) ∧
      h.staList.Nodup ∧ (∀ b, (h.staHash b).Nodup) ∧
      (∀ p ∈ h.staList, ∃ s, h.mem p = some s) ∧
      (∀ p ∈ h.staList, ∀ q ∈ h.staList, h.addrOf p = h.addrOf q → p = q) ∧
      h.numSta = h.staList.length ∧ h.numSta ≤ max 0 h.conf.maxNumSta ∧
      (∀ p ∈ h.staList, ∀ s, h.mem p = some s → s.aid ≤ 2007) ∧
      (∀ p ∈ h.staList, ∀ q ∈ h.staList, ∀ s t, h.mem p = some s → h.mem q = some t →
        s.aid = t.aid → s.aid ≠ 0 → p = q) ∧
      (∀ n, 0 < n → (bit h.staAid (n - 1) = true ↔
        ∃ p ∈ h.staList, ∃ s, h.mem p = some s ∧ s.aid = n)) ∧
      ∀ t ∈ h.timers, t.sta ∈ h.staList := by
  have hinv : StaInv h := hrun.rule (StaInv.initial conf) fun s op hs _ => hs.staExec op
  refine ⟨?_, hinv.listNodup, hinv.hashNodup, fun p hp => (hinv.list p).mp hp, ?_, hinv.count,
    hinv.bound, fun p _ s hs => hinv.aidRange p s hs, ?_, ?_, ?_⟩
  · intro b p
    rw [hinv.hash b p, hinv.list p]
    constructor
    · rintro ⟨s, hs, hb⟩
      exact ⟨⟨s, hs⟩, s, hs, hb⟩
    · rintro ⟨-, s, hs, hb⟩
      exact ⟨s, hs, hb⟩
  · intro p hp q hq haddr
    obtain ⟨s, hs⟩ := (hinv.list p).mp hp
    obtain ⟨t, ht⟩ := (hinv.list q).mp hq
    have heq : s.addr = t.addr := by simpa [Hapd.addrOf, hs, ht] using haddr
    exact hinv.addrUnique p q s t hs ht heq
  · intro p _ q _ s t hs ht heq hne
    exact hinv.aidUnique p q s t hs ht heq hne
  · intro n hn
    rw [hinv.aidBits (n - 1)]
    have hsucc : n - 1 + 1 = n := by omega
    constructor
    · rintro ⟨p, s, hs, haid⟩
      exact ⟨p, (hinv.list p).mpr ⟨s, hs⟩, s, hs, by omega⟩
    · rintro ⟨p, -, s, hs, haid⟩
      exact ⟨p, s, hs, by omega⟩
  · intro t ht
    exact (hinv.list t.sta).mpr (hinv.timers t ht)

-- Two stations in one hash chain get AIDs; the first one leaves, and a third one gets its AID.
def sampleStaOps : List StaOp :=
  [.add 0x105 true, .assoc 0x105, .add 0x205 true, .assoc 0x205,
    .startSaQuery 0x205 ⟨10, 0⟩ true, .free 0x105, .add 0x305 true, .assoc 0x305]

theorem station_table_sample :
    ((sampleStaOps.foldl staExec (Hapd.initial {} : Hapd Unit)).mem 2).map StaInfo.aid = some 1 ∧
      (sampleStaOps.foldl staExec (Hapd.initial {} : Hapd Unit)).staList.Nodup ∧
      ∀ t ∈ (sampleStaOps.foldl staExec (Hapd.initial {} : Hapd Unit)).timers,
        t.sta ∈ (sampleStaOps.foldl staExec (Hapd.initial {} : Hapd Unit)).staList := by
  have hrun : Runs staExec (fun _ _ => True) (Hapd.initial {})
      (sampleStaOps.foldl staExec (Hapd.initial {} : Hapd Unit)) :=
    Runs.of_list sampleStaOps (by decide)
  obtain ⟨-, hnodup, -, -, -, -, -, -, -, -, htimers⟩ := station_table {} _ hrun
  exact ⟨by decide, hnodup, htimers⟩

end WpaSupplicant.Ap

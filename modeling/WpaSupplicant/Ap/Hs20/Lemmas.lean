import WpaSupplicant.Ap.Hs20
import WpaSupplicant.Ap.StaTable.Lemmas

namespace WpaSupplicant.Ap

open GasQuery

variable {conf : HsConfig} {s s' : HsAp} {d d' : DialogRef} {dia : Dialog} {addr : Addr}
  {dialogToken : UInt8}

theorem dialog_eq_some : s.dialog d = some dia ↔
    ∃ e, s.hapd.mem d.sta = some e ∧ e.ext.hs20Dialog d.slot = dia := Option.map_eq_some_iff

theorem dialog_setDialog_self (h : s.dialog d = some dia) (dia' : Dialog) :
    (s.setDialog d dia').dialog d = some dia' := by
  obtain ⟨e, he, -⟩ := dialog_eq_some.1 h
  simp [HsAp.dialog, HsAp.setDialog, Hapd.modify, he]

theorem dialog_setDialog_ne (h : d' ≠ d) (dia' : Dialog) :
    (s.setDialog d dia').dialog d' = s.dialog d' := by
  simp only [HsAp.dialog, HsAp.setDialog, Hapd.modify]
  by_cases hsta : d'.sta = d.sta
  · have hslot : d'.slot ≠ d.slot := by
      intro hslot
      apply h
      cases d
      cases d'
      simp_all
    rw [hsta, Function.update_self]
    cases s.hapd.mem d.sta with
    | none => rfl
    | some e => simp [hslot]
  · rw [Function.update_of_ne hsta]

theorem addrOf_modify {δ : Type} (h : Hapd δ) (sta p : StaPtr) (f : StaInfo δ → StaInfo δ)
    (hf : ∀ e, (f e).addr = e.addr) : (h.modify sta f).addrOf p = h.addrOf p := by
  simp only [Hapd.addrOf, Hapd.modify]
  by_cases hp : p = sta
  · subst hp
    rw [Function.update_self]
    cases h.mem p with
    | none => rfl
    | some e => simp [hf e]
  · rw [Function.update_of_ne hp]

@[simp] theorem addrOf_setDialog (p : StaPtr) (dia' : Dialog) :
    (s.setDialog d dia').hapd.addrOf p = s.hapd.addrOf p :=
  addrOf_modify _ _ _ _ fun _ => rfl

@[simp] theorem sent_setDialog (dia' : Dialog) : (s.setDialog d dia').sent = s.sent := rfl

@[simp] theorem next_setDialog (dia' : Dialog) : (s.setDialog d dia').next = s.next := rfl

@[simp] theorem dialog_sendAction (dst : Addr) (msg : GasMsg) (serial : Option ℕ) :
    (s.sendAction dst msg serial).dialog d = s.dialog d := rfl

theorem StaInv.setDialog (hinv : StaInv s.hapd) (dia' : Dialog) :
    StaInv (s.setDialog d dia').hapd := hinv.modify _ (by simp)

theorem hs20DialogFind_some (hinv : StaInv s.hapd)
    (hfind : hs20DialogFind s addr dialogToken = some d) :
    s.hapd.addrOf d.sta = some addr ∧
      ∃ dia, s.dialog d = some dia ∧ dia.valid = true ∧ dia.dialogToken = dialogToken := by
  obtain ⟨sta, hget, hrest⟩ := Option.bind_eq_some_iff.mp hfind
  obtain ⟨i, hi, rfl⟩ := Option.map_eq_some_iff.mp hrest
  obtain ⟨e, he, hslot⟩ := Option.bind_eq_some_iff.mp hi
  obtain ⟨e', he', haddr⟩ := hinv.apGetSta_eq_some.1 hget
  rw [he] at he'
  cases he'
  have hvalid := List.find?_some hslot
  simp only [Bool.and_eq_true, decide_eq_true_eq] at hvalid
  refine ⟨by simp [Hapd.addrOf, he, haddr], e.ext.hs20Dialog i, ?_, hvalid.2, hvalid.1⟩
  exact dialog_eq_some.2 ⟨e, he, rfl⟩

theorem hs20DialogFind_of_valid (hinv : StaInv s.hapd) (haddr : s.hapd.addrOf d.sta = some addr)
    (hdia : s.dialog d = some dia) (hvalid : dia.valid = true)
    (htoken : dia.dialogToken = dialogToken) : hs20DialogFind s addr dialogToken ≠ none := by
  obtain ⟨e, he, hslot⟩ := dialog_eq_some.1 hdia
  have hea : e.addr = addr := by simpa [Hapd.addrOf, he] using haddr
  have hget : apGetSta s.hapd addr = some d.sta := hinv.apGetSta_eq_some.2 ⟨e, he, hea⟩
  have hfound : findSlot e dialogToken ≠ none := by
    intro hnone
    have hno := List.find?_eq_none.mp hnone d.slot (List.mem_finRange _)
    simp [hslot, hvalid, htoken] at hno
  obtain ⟨i, hi⟩ := Option.ne_none_iff_exists'.mp hfound
  simp [hs20DialogFind, hget, he, hi]

-- What the server relies on: the station table, and that a slot which is not in use is cleared
structure HsInv (s : HsAp) : Prop where
  table : StaInv s.hapd
  clean : ∀ d dia, s.dialog d = some dia → dia.valid = false → dia = {}
  serial : ∀ d dia, s.dialog d = some dia → dia.valid = true → dia.serial < s.next

-- A station entry is there or it is made; the dialogs of a new one are cleared.
structure Hosts (s s' : HsAp) : Prop where
  table : StaInv s'.hapd
  sent : s'.sent = s.sent
  timers : s'.timers = s.timers
  next : s'.next = s.next
  addr : ∀ p a, s.hapd.addrOf p = some a → s'.hapd.addrOf p = some a
  dialog : ∀ d, s'.dialog d = s.dialog d ∨ s.dialog d = none ∧ s'.dialog d = some {}

theorem Hosts.refl (hinv : StaInv s.hapd) : Hosts s s :=
  ⟨hinv, rfl, rfl, rfl, fun _ _ h => h, fun _ => .inl rfl⟩

theorem HsInv.hosts (hinv : HsInv s) (h : Hosts s s') : HsInv s' := by
  refine ⟨h.table, fun d dia hdia hvalid => ?_, fun d dia hdia hvalid => ?_⟩
  · rcases h.dialog d with heq | ⟨-, hnew⟩
    · exact hinv.clean d dia (heq ▸ hdia) hvalid
    · rw [hdia] at hnew
      exact Option.some.inj hnew
  · rcases h.dialog d with heq | ⟨-, hnew⟩
    · rw [h.next]
      exact hinv.serial d dia (heq ▸ hdia) hvalid
    rw [hdia] at hnew
    cases hnew
    cases hvalid

theorem dialogSta_hosts (hinv : StaInv s.hapd) (addr : Addr) (alloc : Bool) :
    Hosts s (dialogSta s addr alloc).1 ∧
      ∀ sta, (dialogSta s addr alloc).2 = some sta →
        (dialogSta s addr alloc).1.hapd.addrOf sta = some addr := by
  obtain ⟨sta, hget, -⟩ | ⟨hget, -, heq⟩ | ⟨hget, hroom, heq⟩ := apStaAdd_cases s.hapd addr alloc
  · simp only [dialogSta, hget]
    refine ⟨Hosts.refl hinv, fun p hp => ?_⟩
    cases hp
    obtain ⟨e, he, haddr⟩ := hinv.apGetSta_eq_some.1 hget
    simp [Hapd.addrOf, he, haddr]
  · simp only [dialogSta, hget, heq]
    exact ⟨Hosts.refl hinv, fun p hp => by cases hp⟩
  · simp only [dialogSta, hget, heq]
    have hins := hinv.insertSta (s := { addr := addr, ext := (default : Dialogs) })
      (hinv.apGetSta_eq_none.1 hget) hroom rfl
    have hnew : s.hapd.mem s.hapd.next = none := hinv.fresh _ le_rfl
    refine ⟨⟨?_, rfl, rfl, rfl, fun p a hp => ?_, fun d => ?_⟩, fun p hp => ?_⟩
    · refine StaInv.rearm (hins.modify _ (by simp)) _ ((mem_modify _).mpr ?_)
      exact ⟨_, Function.update_self _ _ _⟩
    · have hne : p ≠ s.hapd.next := by
        rintro rfl
        simp [Hapd.addrOf, hnew] at hp
      show (Hapd.modify _ _ _).addrOf p = some a
      refine (addrOf_modify _ _ _ _ (by simp)).trans ?_
      simpa [Hapd.addrOf, insertSta, Function.update_of_ne hne] using hp
    · show Option.map _ ((Hapd.modify _ _ _).mem d.sta) = _ ∨ _ ∧
        Option.map _ ((Hapd.modify _ _ _).mem d.sta) = _
      by_cases hd : d.sta = s.hapd.next
      · refine .inr ⟨by simp [HsAp.dialog, hd, hnew], ?_⟩
        simp only [Hapd.modify, insertSta, hd, Function.update_self]
        rfl
      · refine .inl ?_
        simp only [Hapd.modify, insertSta, HsAp.dialog, Function.update_of_ne hd]
    · cases hp
      show (Hapd.modify _ _ _).addrOf _ = some addr
      refine (addrOf_modify _ _ _ _ (by simp)).trans ?_
      simp [Hapd.addrOf, insertSta]

structure Opens (s : HsAp) (addr : Addr) (dialogToken : UInt8) (d : DialogRef) (s' : HsAp) :
    Prop where
  table : StaInv s'.hapd
  sent : s'.sent = s.sent
  timers : s'.timers = s.timers
  next : s'.next = s.next + 1
  addr : s'.hapd.addrOf d.sta = some addr
  addrs : ∀ p a, s.hapd.addrOf p = some a → s'.hapd.addrOf p = some a
  before : s.dialog d = none ∨ s.dialog d = some {}
  opened : s'.dialog d =
    some { valid := true, dialogToken := dialogToken, serial := s.next }
  others : ∀ d', d' ≠ d → s'.dialog d' = s.dialog d' ∨ s.dialog d' = none ∧ s'.dialog d' = some {}

theorem freeSlot_some {e : StaInfo Dialogs} {i : Slot} (h : freeSlot e = some i) :
    (e.ext.hs20Dialog i).valid = false := by simpa using List.find?_some h

theorem hs20DialogCreate_cases (hinv : HsInv s) (addr : Addr) (dialogToken : UInt8) (alloc : Bool) :
    (∃ s', hs20DialogCreate s addr dialogToken alloc = (s', none) ∧ Hosts s s') ∨
      ∃ s' d, hs20DialogCreate s addr dialogToken alloc = (s', some d) ∧
        Opens s addr dialogToken d s' := by
  obtain ⟨hhosts, haddr⟩ := dialogSta_hosts hinv.table addr alloc
  rw [hs20DialogCreate]
  generalize hr : dialogSta s addr alloc = r at hhosts haddr
  obtain ⟨s₁, sta⟩ := r
  cases sta with
  | none => exact .inl ⟨s₁, rfl, hhosts⟩
  | some sta =>
    replace hhosts : Hosts s s₁ := hhosts
    have hsta : s₁.hapd.addrOf sta = some addr := haddr sta rfl
    obtain ⟨e, he, hea⟩ := Option.map_eq_some_iff.mp hsta
    dsimp only
    rw [he, Option.bind_some]
    cases hslot : freeSlot e with
    | none => exact .inl ⟨s₁, rfl, hhosts⟩
    | some i =>
      have hinv₁ := hinv.hosts hhosts
      have hold : s₁.dialog ⟨sta, i⟩ = some (e.ext.hs20Dialog i) :=
        dialog_eq_some.2 ⟨e, he, rfl⟩
      have hclean : e.ext.hs20Dialog i = {} := hinv₁.clean _ _ hold (freeSlot_some hslot)
      refine .inr ⟨_, ⟨sta, i⟩, rfl, ?_, hhosts.sent, hhosts.timers, ?_, ?_, ?_, ?_, ?_, ?_⟩
      · exact hhosts.table.modify _ (by simp)
      · show s₁.next + 1 = s.next + 1
        rw [hhosts.next]
      · show (Hapd.modify _ _ _).addrOf sta = some addr
        exact (addrOf_modify _ _ _ _ (by simp)).trans hsta
      · intro p a hp
        show (Hapd.modify _ _ _).addrOf p = some a
        exact (addrOf_modify _ _ _ _ (by simp)).trans (hhosts.addr p a hp)
      · rcases hhosts.dialog ⟨sta, i⟩ with heq | ⟨hnone, -⟩
        · exact .inr (by rw [← heq, hold, hclean])
        · exact .inl hnone
      · show Option.map _ ((Hapd.modify _ _ _).mem sta) = _
        simp only [Hapd.modify, Function.update_self, he, Option.map_some, hclean, hhosts.next]
      · intro d' hd'
        have hsame : HsAp.dialog
            { s₁ with
              hapd := s₁.hapd.modify sta fun e =>
                { e with
                  ext :=
                    { hs20Dialog := Function.update e.ext.hs20Dialog i
                        { e.ext.hs20Dialog i with
                          valid := true, dialogToken := dialogToken, serial := s₁.next }
                      hs20DialogNext := i + 1 } }
              next := s₁.next + 1 } d' = s₁.dialog d' := by
          simp only [HsAp.dialog, Hapd.modify]
          by_cases hd : d'.sta = sta
          · have hne : d'.slot ≠ i := by
              rintro rfl
              exact hd' (by cases d'; simp_all)
            rw [hd, Function.update_self, he]
            simp [hne]
          · rw [Function.update_of_ne hd]
        rw [hsame]
        exact hhosts.dialog d'

end WpaSupplicant.Ap

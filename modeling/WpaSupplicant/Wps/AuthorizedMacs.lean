import WpaSupplicant.Wps.RegistrarData

namespace WpaSupplicant.Wps

open Lib.Machine Lib.Recency

section Slots

variable {m : AuthMacs} {l : List Addr} {a : Addr} {h : List (Edit Addr)}

namespace AuthMacs

theorem shiftFrom_slots (i : Fin maxAuthorizedMacs) :
    (m.shiftFrom i).slots = m.slots.take i ++ m.slots.drop (i + 1) ++ [0] := rfl

theorem remove_eq (m : AuthMacs) (a : Addr) :
    m.remove a = if m.slots.head? = some a then m.shiftFrom ⟨0, by decide⟩ else m := by
  rw [remove]
  by_cases ha : m.slots.head? = some a
  · have hfind : (List.finRange maxAuthorizedMacs).find? (fun _ => decide (m.slots.head? = some a)) =
        some ⟨0, by decide⟩ := by
      simp only [ha, decide_true]
      decide
    rw [hfind, if_pos ha]
  · have hfind : (List.finRange maxAuthorizedMacs).find? (fun _ => decide (m.slots.head? = some a)) = none := by
      simp only [ha, decide_false]
      decide
    rw [hfind, if_neg ha]

structure Holds (m : AuthMacs) (l : List Addr) : Prop where
  slots_eq : m.slots = l ++ List.replicate (maxAuthorizedMacs - l.length) 0
  nonzero : 0 ∉ l

theorem Holds.length_le (hm : m.Holds l) : l.length ≤ maxAuthorizedMacs := by
  have hlen := m.length_slots
  rw [hm.slots_eq, List.length_append, List.length_replicate] at hlen
  omega

theorem Holds.mem_slots (hm : m.Holds l) (ha : a ≠ 0) : a ∈ m.slots ↔ a ∈ l := by
  rw [hm.slots_eq, List.mem_append, List.mem_replicate]
  exact ⟨fun h => h.resolve_right fun h => ha h.2, Or.inl⟩

theorem Holds.advertised_eq (hm : m.Holds l) : m.advertised = l := by
  have hl : ∀ x ∈ l, decide (x ≠ 0) = true := by
    intro x hx
    simpa using ne_of_mem_of_not_mem hx hm.nonzero
  rw [advertised, hm.slots_eq, List.takeWhile_append_of_pos hl, List.takeWhile_replicate]
  simp

theorem holds_empty : empty.Holds [] := ⟨rfl, List.not_mem_nil⟩

theorem Holds.add (hm : m.Holds l) (ha : a ≠ 0) :
    (m.add a).Holds (Edit.apply maxAuthorizedMacs l (.add a)) := by
  have hle := hm.length_le
  rw [AuthMacs.add, Edit.apply]
  by_cases hmem : a ∈ l
  · rw [if_pos hmem, if_pos ((hm.mem_slots ha).mpr hmem)]
    exact hm
  rw [if_neg hmem, if_neg (mt (hm.mem_slots ha).mp hmem)]
  constructor
  · show a :: m.slots.take 4 = (a :: l).take (4 + 1) ++ _
    rw [List.take_succ_cons, List.cons_append, hm.slots_eq, List.take_append, List.take_replicate]
    simp only [List.length_take, List.length_cons, maxAuthorizedMacs] at hle ⊢
    have hfree : min (4 - l.length) (5 - l.length) = 5 - min 5 (l.length + 1) := by omega
    rw [hfree]
  · intro hzero
    rcases List.mem_cons.mp (List.mem_of_mem_take hzero) with heq | hzero
    · exact ha heq.symm
    · exact hm.nonzero hzero

theorem Holds.add_zero (hm : m.Holds l) (hfree : l.length < maxAuthorizedMacs) : m.add 0 = m := by
  rw [AuthMacs.add, if_pos]
  rw [hm.slots_eq, List.mem_append, List.mem_replicate]
  exact Or.inr ⟨by omega, rfl⟩

theorem Holds.remove (hm : m.Holds l) (ha : a ∉ l ∨ l.head? = some a) : (m.remove a).Holds (l.erase a) := by
  rw [remove_eq]
  cases l with
  | nil =>
    have hslots : m.slots = List.replicate maxAuthorizedMacs 0 := by simpa using hm.slots_eq
    split
    · refine ⟨?_, List.not_mem_nil⟩
      rw [shiftFrom_slots, hslots]
      rfl
    · exact hm
  | cons b l =>
    have hslots : m.slots = b :: (l ++ List.replicate (maxAuthorizedMacs - (l.length + 1)) 0) := hm.slots_eq
    have hle : l.length + 1 ≤ maxAuthorizedMacs := hm.length_le
    by_cases hab : b = a
    · subst hab
      rw [hslots, List.head?_cons, if_pos rfl, List.erase_cons_head]
      refine ⟨?_, fun hzero => hm.nonzero (List.mem_cons_of_mem b hzero)⟩
      rw [shiftFrom_slots, hslots]
      simp only [List.take_zero, List.nil_append, Nat.zero_add, List.drop_succ_cons, List.drop_zero,
        List.append_assoc]
      rw [← List.replicate_succ']
      have hfree : maxAuthorizedMacs - (l.length + 1) + 1 = maxAuthorizedMacs - l.length := by omega
      rw [hfree]
    · have hnot : a ∉ b :: l := by
        rcases ha with ha | ha
        · exact ha
        · exact absurd (Option.some.inj ha) hab
      rw [hslots, List.head?_cons, if_neg fun heq => hab (Option.some.inj heq), List.erase_of_not_mem hnot]
      exact hm

end AuthMacs

def logged (es : List (Edit Addr)) : List (Edit Addr) := es.filter (· ≠ .add 0)

-- Every address that is removed is the newest one when its turn comes, or is not in the list, and the all-zero
-- address is not added to a full list.
def Fits : List Addr → List (Edit Addr) → Prop
  | _, [] => True
  | l, .add a :: es =>
    if a = 0 then l.length < maxAuthorizedMacs ∧ Fits l es
    else Fits (Edit.apply maxAuthorizedMacs l (.add a)) es
  | l, .remove a :: es => (a ∉ l ∨ l.head? = some a) ∧ Fits (l.erase a) es

instance Fits.decidable : ∀ l es, Decidable (Fits l es)
  | _, [] => isTrue trivial
  | l, .add a :: es =>
    haveI := Fits.decidable l es
    haveI := Fits.decidable (Edit.apply maxAuthorizedMacs l (.add a)) es
    inferInstanceAs (Decidable (if a = 0 then _ ∧ _ else _))
  | l, .remove a :: es =>
    haveI := Fits.decidable (l.erase a) es
    inferInstanceAs (Decidable (_ ∧ _))

theorem hold_append (h es : List (Edit Addr)) :
    hold maxAuthorizedMacs (es.reverse ++ h) =
      es.foldl (Edit.apply maxAuthorizedMacs) (hold maxAuthorizedMacs h) := by
  induction es generalizing h with
  | nil => rfl
  | cons e es ih =>
    rw [List.reverse_cons, List.append_assoc, List.foldl_cons]
    exact ih (e :: h)

theorem AuthMacs.Holds.edits {es : List (Edit Addr)} (hm : m.Holds l) (hfits : Fits l es) :
    (es.foldl AuthMacs.edit m).Holds ((logged es).foldl (Edit.apply maxAuthorizedMacs) l) := by
  induction es generalizing m l with
  | nil => exact hm
  | cons e es ih =>
    rw [List.foldl_cons]
    cases e with
    | add a =>
      rw [Fits] at hfits
      by_cases ha : a = 0
      · subst ha
        rw [if_pos rfl] at hfits
        have hm' : m.edit (.add 0) = m := hm.add_zero hfits.1
        rw [hm', logged, List.filter_cons_of_neg (by simp)]
        exact ih hm hfits.2
      · rw [if_neg ha] at hfits
        rw [logged, List.filter_cons_of_pos (by simpa using ha), List.foldl_cons]
        exact ih (hm.add ha) hfits
    | remove a =>
      rw [logged, List.filter_cons_of_pos (by simp), List.foldl_cons]
      exact ih (hm.remove hfits.1) hfits.2

end Slots

section Calls

variable {reg : RegistrarData}

namespace RegistrarData

def Advertises (reg : RegistrarData) : Prop := reg.authorizedMacsUnion = reg.authorizedMacs

structure Edits (reg reg' : RegistrarData) (es : List (Edit Addr)) : Prop where
  macs : reg'.authorizedMacs = es.foldl AuthMacs.edit reg.authorizedMacs
  advertises : reg.Advertises → reg'.Advertises

theorem Edits.nil {reg' : RegistrarData} (hmacs : reg'.authorizedMacs = reg.authorizedMacs)
    (hunion : reg'.authorizedMacsUnion = reg.authorizedMacsUnion) : reg.Edits reg' [] :=
  ⟨hmacs, fun h => hunion.trans (h.trans hmacs.symm)⟩

theorem edits_removeFirst (P : Pin → Bool) : reg.Edits (reg.removeFirst P) (reg.firstAuthorizes P) := by
  rw [removeFirst, firstAuthorizes]
  cases reg.pins.find? fun p => P p.toPin with
  | none => exact .nil rfl rfl
  | some p => exact ⟨rfl, fun _ => rfl⟩

theorem edits_foldl_removePin (pins : List RegPin) :
    reg.Edits (pins.foldl removePin reg) (pins.map fun p => .remove p.authorizes) := by
  induction pins generalizing reg with
  | nil => exact .nil rfl rfl
  | cons p pins ih =>
    have hrest : (reg.removePin p).Edits _ _ := ih
    refine ⟨?_, fun _ => hrest.advertises rfl⟩
    rw [List.foldl_cons, hrest.macs, List.map_cons, List.foldl_cons]
    rfl

theorem edits_getPin (now : OsTime) (uuid : BitVec 128) :
    reg.Edits (reg.getPin now uuid).1 ((reg.pins.filter fun p => p.expired now).map fun p => .remove p.authorizes) := by
  have hfold : reg.Edits _ _ := edits_foldl_removePin (reg.pins.filter fun p => p.expired now)
  have hexpire : reg.Edits (reg.expirePins now) _ := ⟨hfold.macs, hfold.advertises⟩
  have hrest : (reg.getPin now uuid).1.authorizedMacs = (reg.expirePins now).authorizedMacs ∧
      (reg.getPin now uuid).1.authorizedMacsUnion = (reg.expirePins now).authorizedMacsUnion := by
    rw [getPin]
    split
    · split <;> exact ⟨rfl, rfl⟩
    split
    · exact ⟨rfl, rfl⟩
    · split <;> exact ⟨rfl, rfl⟩
  exact ⟨hrest.1.trans hexpire.macs, fun h => hrest.2.trans ((hexpire.advertises h).trans hrest.1.symm)⟩

theorem edits_exec (id : ℕ) (call : RegCall) : reg.Edits (reg.exec id call) (reg.edits call) := by
  obtain ⟨now, alloc, op⟩ := call
  cases op with
  | addPin addr uuid pin timeout =>
    cases alloc with
    | false => exact .nil rfl rfl
    | true => exact ⟨rfl, fun _ => rfl⟩
  | getPin uuid => exact edits_getPin now uuid
  | invalidatePin uuid => exact edits_removeFirst _
  | unlockPin uuid =>
    simp only [exec, unlockPin, edits]
    cases reg.pins.find? fun p => p.isFor uuid with
    | none => exact .nil rfl rfl
    | some p =>
      by_cases hw : p.wildcard = 3
      · simpa [hw, invalidatePin] using edits_removeFirst (Pin.isFor uuid)
      · have hnil : reg.Edits (reg.modifyPin (Pin.isFor uuid) Pin.unlock) [] := .nil rfl rfl
        simpa [hw] using hnil
  | buttonPushed p2pDevAddr =>
    simp only [exec, buttonPushed, edits]
    split
    · exact .nil rfl rfl
    · exact ⟨rfl, fun _ => rfl⟩
  | pbcTimeout => exact ⟨rfl, fun _ => rfl⟩
  | selectedTimeout => exact ⟨rfl, fun _ => rfl⟩
  | complete pbc uuidE =>
    cases pbc with
    | false => exact ⟨rfl, fun _ => rfl⟩
    | true => exact ⟨rfl, fun _ => rfl⟩
  | cancel =>
    simp only [exec, cancel, edits]
    split
    · exact ⟨rfl, fun _ => rfl⟩
    split
    · have hfirst : reg.pinCompleted.Edits _ _ := edits_removeFirst fun p => decide (p.wildcard ≠ 0)
      exact ⟨hfirst.macs, fun _ => hfirst.advertises rfl⟩
    · exact .nil rfl rfl
  | probeReq addr msg =>
    simp only [exec, probeReqRx, edits]
    split <;> exact .nil rfl rfl
  | m1 p2pDevAddr env ctx wps attr =>
    simp only [exec, processM1, edits]
    split
    · exact .nil rfl rfl
    · split <;> exact .nil rfl rfl

end RegistrarData

end Calls

def editsFit (w : RegWorld) (call : RegCall) : Prop := Fits w.reg.authorizedMacs.advertised (w.reg.edits call)

instance : ∀ w call, Decidable (editsFit w call) := fun w call =>
  Fits.decidable w.reg.authorizedMacs.advertised (w.reg.edits call)

structure ListRight (w : RegWorld) : Prop where
  holds : w.reg.authorizedMacs.Holds (hold maxAuthorizedMacs w.history)
  advertises : w.reg.Advertises

theorem ListRight.exec {w : RegWorld} (h : ListRight w) (call : RegCall) (hfit : editsFit w call) :
    ListRight (w.exec call) := by
  have hedits : w.reg.Edits _ _ := RegistrarData.edits_exec w.next call
  refine ⟨?_, hedits.advertises h.advertises⟩
  rw [editsFit, h.holds.advertised_eq] at hfit
  have hhold := h.holds.edits hfit
  rw [← hold_append, ← hedits.macs] at hhold
  exact hhold

theorem list_right {t₀ : OsTime} {w : RegWorld} (h : Runs RegWorld.exec editsFit (.start t₀) w) : ListRight w :=
  h.rule ⟨AuthMacs.holds_empty, rfl⟩ fun _ call hw hfit => hw.exec call hfit

-- In a run whose calls fit, what is advertised is what was added, and not removed since or pushed out.
theorem authorized_macs_follow {t₀ : OsTime} {w : RegWorld}
    (h : Runs RegWorld.exec editsFit (.start t₀) w) :
    ∃ used : List Addr,
      w.reg.authorizedMacs.slots = used ++ List.replicate (maxAuthorizedMacs - used.length) 0 ∧
        used.Nodup ∧ 0 ∉ used ∧ w.reg.authorizedMacsUnion.advertised = used ∧
        (∀ a, a ∈ used ↔ Held maxAuthorizedMacs a w.history) ∧
        ∀ call, editsFit w call →
          (w.exec call).reg.authorizedMacsUnion.advertised =
            (logged (w.reg.edits call)).foldl (Edit.apply maxAuthorizedMacs) used := by
  have hw := list_right h
  refine ⟨hold maxAuthorizedMacs w.history, hw.holds.slots_eq, nodup_hold _, hw.holds.nonzero, ?_,
    fun a => mem_hold_iff, ?_⟩
  · rw [hw.advertises, hw.holds.advertised_eq]
  · intro call hfit
    have hnext := hw.exec call hfit
    rw [hnext.advertises, hnext.holds.advertised_eq, ← hold_append]
    rfl

def twoPins (uuid : BitVec 128) : List RegCall :=
  [⟨⟨0, 0⟩, true, .addPin (some 0xa1) (some 1) [49] 0⟩, ⟨⟨0, 0⟩, true, .addPin (some 0xb2) (some 2) [50] 0⟩,
    ⟨⟨1, 0⟩, true, .invalidatePin uuid⟩]

def invalidated (uuid : BitVec 128) : RegWorld := (twoPins uuid).foldl RegWorld.exec (.start ⟨0, 0⟩)

theorem authorized_macs_follow_second :
    (invalidated 2).reg.authorizedMacsUnion.advertised = [0xa1] ∧
      Held maxAuthorizedMacs 0xa1 (invalidated 2).history := by
  have hrun : Runs RegWorld.exec editsFit (.start ⟨0, 0⟩) (invalidated 2) :=
    Runs.of_list _ (by decide)
  obtain ⟨used, -, -, -, hused, hheld, -⟩ := authorized_macs_follow hrun
  have hslots : (invalidated 2).reg.authorizedMacsUnion.advertised = [0xa1] := rfl
  refine ⟨hslots, (hheld 0xa1).mp ?_⟩
  rw [← hused, hslots]
  exact List.mem_singleton_self _

-- The first one stays in the list, behind the second one.
theorem removed_mac_stays :
    (invalidated 1).history = [.remove 0xa1, .add 0xb2, .add 0xa1] ∧
      (invalidated 1).reg.authorizedMacsUnion.advertised = [0xb2, 0xa1] ∧
      ¬Held maxAuthorizedMacs 0xa1 (invalidated 1).history := by
  refine ⟨rfl, rfl, ?_⟩
  rw [← mem_hold_iff]
  decide

end WpaSupplicant.Wps

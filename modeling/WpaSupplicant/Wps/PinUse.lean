import WpaSupplicant.Wps.Pins.Lemmas
import WpaSupplicant.Lib.Machine

namespace WpaSupplicant.Wps

open Lib.Machine Lib.FirstMatch

def handsOut (w : World) : PinOp → Option Pin
  | .call sid step => (w.sessions sid).bind fun h => (pinFor w h.data step).2
  | _ => none

def handCount (w : World) (id : ℕ) : ℕ := w.handed.countP fun h => h.1 = id

def OwnFirst (w : World) (h : PinSession) : Prop :=
  ∀ p ∈ w.pins, h.pin = some p.id → p.wildcard ≠ 3 →
    w.pins.find? (Pin.isFor h.data.uuidE) = some p

def NotOthers (w : World) (sid : ℕ) (h : PinSession) : Prop :=
  ∀ p, w.pins.find? (Pin.isFor h.data.uuidE) = some p → p.wildcard ≠ 3 →
    ∀ sid' h', w.sessions sid' = some h' → h'.pin = some p.id → sid' = sid

-- The steps for which the UUID-E finds the right PIN: the end of a session, and an M7 that proves the second
-- half of its PIN
def FindsOwn (c : Crypto) (w : World) : PinOp → Prop
  | .deinit sid => ∀ h, w.sessions sid = some h →
      (h.data.pinRevealed = true → OwnFirst w h) ∧ (h.data.pinRevealed = false → NotOthers w sid h)
  | .call sid step => ∀ h, w.sessions sid = some h → h.data.state = .recvM7 →
      provesPin c h.data step = true → OwnFirst w h
  | _ => True

def OneHolder (w : World) : Prop :=
  ∀ sid sid' h h' id, w.sessions sid = some h → w.sessions sid' = some h' → h.pin = some id →
    h'.pin = some id → sid = sid'

section Counts

-- What holds of the PINs whatever the sessions do
structure CountInv (w : World) : Prop where
  nodup : (w.pins.map Pin.id).Nodup
  fresh : ∀ p ∈ w.pins, p.id < w.next
  handedFresh : ∀ h ∈ w.handed, h.1 < w.next
  wildFresh : ∀ id ∈ w.wild, id < w.next
  plain : ∀ p ∈ w.pins, p.id ∉ w.wild → p.wildcard = 0
  counted : ∀ p ∈ w.pins, p.id ∈ w.wild → handCount w p.id + 1 ≤ p.wildcard ∧ p.wildcard ≤ 3
  twice : ∀ id ∈ w.wild, handCount w id ≤ 2

variable {c : Crypto} {w w' : World}

theorem CountInv.later (h : CountInv w) (hlater : Later Pin.Follows w.pins w'.pins)
    (hnext : w'.next = w.next) (hhanded : w'.handed = w.handed) (hwild : w'.wild = w.wild) :
    CountInv w' := by
  have hcount : ∀ id, handCount w' id = handCount w id := by simp [handCount, hhanded]
  refine ⟨hlater.nodup h.nodup, ?_, ?_, ?_, ?_, ?_, ?_⟩
  · intro p' hp'
    obtain ⟨p, hp, hpp⟩ := hlater.origin p' hp'
    rw [hpp.id, hnext]
    exact h.fresh p hp
  · rw [hhanded, hnext]
    exact h.handedFresh
  · rw [hwild, hnext]
    exact h.wildFresh
  · intro p' hp' hnot
    obtain ⟨p, hp, hpp⟩ := hlater.origin p' hp'
    rw [hpp.id, hwild] at hnot
    exact hpp.zero (h.plain p hp hnot)
  · intro p' hp' hin
    obtain ⟨p, hp, hpp⟩ := hlater.origin p' hp'
    rw [hpp.id, hwild] at hin
    obtain ⟨hle, h3⟩ := h.counted p hp hin
    rw [hcount, hpp.id]
    exact ⟨hle.trans hpp.le, hpp.bound h3⟩
  · intro id hid
    rw [hwild] at hid
    rw [hcount]
    exact h.twice id hid

theorem later_unlockPin {pins : List Pin} {uuid : BitVec 128} :
    Later Pin.Follows pins (unlockPin pins uuid) := by
  unfold unlockPin
  split
  · exact (Later.of_sublist (List.Sublist.refl _)).follows
  split
  · exact (later_invalidatePin).follows
  refine ⟨fun p' hp' => ?_, fun hnodup => ?_⟩
  · rcases mem_modifyFirst hp' with hmem | ⟨p, hfind, rfl⟩
    · exact ⟨p', hmem, .refl p'⟩
    · exact ⟨p, List.mem_of_find?_eq_some hfind, rfl, le_rfl, fun h => h, fun h => h⟩
  · rw [map_modifyFirst (f := Pin.unlock) (fun p => rfl)]
    exact hnodup

theorem later_events {P : Prop} {wps wps' : WpsData} {events : List Event} (h : PinEffect P wps wps' events)
    (pins : List Pin) : Later Pin.Evolves pins (events.foldl applyEvent pins) := by
  cases h with
  | idle hevents hrevealed hearly | m6 hevents hrevealed hlate =>
    rw [hevents.foldl]
    exact .of_sublist (List.Sublist.refl _)
  | refused hevents hrevealed hlate =>
    rw [hevents]
    exact later_invalidatePin
  | proved hproves hstate hevents hrevealed hlate =>
    rw [hevents]
    exact later_unlock_invalidate

theorem pinFor_spec (w : World) (wps : WpsData) (step : Step) : GetPin w.now w.pins (pinFor w wps step) := by
  unfold pinFor
  split
  · exact getPin_spec w.now w.pins wps.uuidE
  · exact ⟨.of_sublist (List.Sublist.refl _), by simp, by simp, by simp⟩

theorem later_call {sid : ℕ} {h : PinSession} {step : Step} (hreg : h.data.registrar = true) :
    Later Pin.Evolves (pinFor w h.data step).1 (callSession c w sid h step).pins :=
  later_events (call_effect hreg) _

theorem CountInv.call {sid : ℕ} {h : PinSession} {step : Step} (hinv : CountInv w)
    (hreg : h.data.registrar = true) : CountInv (callSession c w sid h step) := by
  have hspec := pinFor_spec w h.data step
  have hevents : Later Pin.Evolves (pinFor w h.data step).1 (callSession c w sid h step).pins :=
    later_call hreg
  have hlater := hspec.later.trans hevents
  cases hq : (pinFor w h.data step).2 with
  | none =>
    refine hinv.later hlater.follows rfl ?_ rfl
    simp [callSession, hq]
  | some q =>
    obtain ⟨hmem, -, -, h2⟩ := hspec.handed q hq
    have hhanded : (callSession c w sid h step).handed = (q.id, sid) :: w.handed := by
      simp [callSession, hq]
    have hcount : ∀ id, handCount (callSession c w sid h step) id =
        handCount w id + if q.id = id then 1 else 0 := by
      intro id
      simp [handCount, hhanded, List.countP_cons]
    refine ⟨hlater.nodup hinv.nodup, ?_, ?_, hinv.wildFresh, ?_, ?_, ?_⟩
    · intro p' hp'
      obtain ⟨p, hp, hpp⟩ := hlater.origin p' hp'
      rw [hpp.id]
      exact hinv.fresh p hp
    · intro x hx
      rw [hhanded, List.mem_cons] at hx
      rcases hx with rfl | hx
      · exact hinv.fresh q hmem
      · exact hinv.handedFresh x hx
    · intro p' hp' hnot
      obtain ⟨p, hp, hpp⟩ := hlater.origin p' hp'
      rw [hpp.id] at hnot
      exact hpp.zero (hinv.plain p hp hnot)
    · intro p' hp' hin
      obtain ⟨p, hp, hpp⟩ := hlater.origin p' hp'
      have hin' : p.id ∈ w.wild := hpp.id ▸ hin
      obtain ⟨hle, h3⟩ := hinv.counted p hp hin'
      refine ⟨?_, hpp.bound h3⟩
      rw [hcount, hpp.id]
      by_cases hid : q.id = p.id
      · -- the count of the PIN that is handed out goes up with its use
        have hqp : q = p := List.inj_on_of_nodup_map hinv.nodup hmem hp hid
        subst hqp
        obtain ⟨p₁, hp₁, hpp₁⟩ := hevents.origin p' hp'
        have hw := hspec.counts q hq hinv.nodup (by omega) p₁ hp₁ (hpp₁.id.symm.trans hpp.id)
        have hle₁ := hpp₁.le
        rw [if_pos rfl]
        omega
      · rw [if_neg hid]
        exact hle.trans hpp.le
    · intro id hid
      rw [hcount]
      by_cases heq : q.id = id
      · subst heq
        obtain ⟨hle, -⟩ := hinv.counted q hmem hid
        rw [if_pos rfl]
        omega
      · rw [if_neg heq]
        exact hinv.twice id hid

theorem CountInv.addPin {uuid : Option (BitVec 128)} {pin : Octets} {timeout : ℤ} (hinv : CountInv w) :
    CountInv (pinExec c w (.addPin uuid pin timeout)) := by
  have hnew : w.next ∉ w.pins.map Pin.id := by
    intro hmem
    obtain ⟨p, hp, hid⟩ := List.mem_map.mp hmem
    have hlt := hinv.fresh p hp
    omega
  have hzero : handCount w w.next = 0 := by
    unfold handCount
    rw [List.countP_eq_zero]
    intro x hx
    have hlt := hinv.handedFresh x hx
    simp only [decide_eq_true_eq]
    omega
  have hwild : ∀ id, id ∈ (pinExec c w (.addPin uuid pin timeout)).wild ↔
      id ∈ w.wild ∨ (uuid = none ∧ id = w.next) := by
    intro id
    by_cases hu : uuid = none
    · simp [pinExec, hu, or_comm]
    · simp [pinExec, hu]
  refine ⟨List.nodup_cons.mpr ⟨hnew, hinv.nodup⟩, ?_, ?_, ?_, ?_, ?_, ?_⟩
  · intro p hp
    rcases List.mem_cons.mp hp with rfl | hp
    · exact Nat.lt_succ_self _
    · exact Nat.lt_succ_of_lt (hinv.fresh p hp)
  · intro x hx
    exact Nat.lt_succ_of_lt (hinv.handedFresh x hx)
  · intro id hid
    rcases (hwild id).mp hid with hid | ⟨-, rfl⟩
    · exact Nat.lt_succ_of_lt (hinv.wildFresh id hid)
    · exact Nat.lt_succ_self _
  · intro p hp hnot
    rcases List.mem_cons.mp hp with rfl | hp
    · have hu : uuid ≠ none := fun hu => hnot ((hwild _).mpr (.inr ⟨hu, rfl⟩))
      simp [newPin, hu]
    · exact hinv.plain p hp (fun h => hnot ((hwild _).mpr (.inl h)))
  · intro p hp hin
    rcases List.mem_cons.mp hp with rfl | hp
    · rcases (hwild _).mp hin with hin | ⟨hu, -⟩
      · exact absurd (hinv.wildFresh _ hin) (lt_irrefl _)
      have h0 : handCount (pinExec c w (.addPin uuid pin timeout)) w.next = 0 := hzero
      have h1 : (newPin w.next w.now uuid pin timeout).wildcard = 1 := by simp [newPin, hu]
      rw [h1]
      exact ⟨by simp only [newPin, h0, zero_add, le_refl], by decide⟩
    · have hlt := hinv.fresh p hp
      rcases (hwild _).mp hin with hin | ⟨-, hid⟩
      · exact hinv.counted p hp hin
      · omega
  · intro id hid
    rcases (hwild id).mp hid with hid | ⟨-, rfl⟩
    · exact hinv.twice id hid
    · exact hzero.le.trans (Nat.zero_le _)

def AllRegistrars (w : World) : Prop := ∀ sid h, w.sessions sid = some h → h.data.registrar = true

theorem AllRegistrars.update {sid : ℕ} {r : Option PinSession} (h : AllRegistrars w)
    (hr : ∀ x, r = some x → x.data.registrar = true)
    (hsessions : w'.sessions = Function.update w.sessions sid r) : AllRegistrars w' := by
  intro sid' x hx
  rw [hsessions, Function.update_apply] at hx
  split at hx
  · exact hr x hx
  · exact h sid' x hx

theorem basic_step (op : PinOp) (h : CountInv w ∧ AllRegistrars w) :
    CountInv (pinExec c w op) ∧ AllRegistrars (pinExec c w op) := by
  obtain ⟨hcount, hreg⟩ := h
  cases op with
  | addPin uuid pin timeout => exact ⟨hcount.addPin, hreg⟩
  | cancel =>
    exact ⟨hcount.later (Later.of_sublist List.eraseP_sublist).follows rfl rfl rfl, hreg⟩
  | tick now =>
    exact ⟨hcount.later (Later.of_sublist (List.Sublist.refl _)).follows rfl rfl rfl, hreg⟩
  | start sid ctx cfg =>
    cases hx : w.sessions sid with
    | some x =>
      simp only [pinExec, hx]
      exact ⟨hcount, hreg⟩
    | none =>
      simp only [pinExec, hx]
      refine ⟨hcount.later (Later.of_sublist (List.Sublist.refl _)).follows rfl rfl rfl,
        hreg.update ?_ rfl⟩
      rintro x ⟨⟩
      rfl
  | call sid step =>
    cases hx : w.sessions sid with
    | none =>
      simp only [pinExec, hx]
      exact ⟨hcount, hreg⟩
    | some x =>
      simp only [pinExec, hx]
      refine ⟨hcount.call (hreg sid x hx), hreg.update ?_ rfl⟩
      rintro y ⟨⟩
      exact (registrar_step (hreg sid x hx)).1
  | deinit sid =>
    cases hx : w.sessions sid with
    | none =>
      simp only [pinExec, hx]
      exact ⟨hcount, hreg⟩
    | some x =>
      simp only [pinExec, hx]
      refine ⟨hcount.later ?_ rfl rfl rfl, hreg.update (by simp) rfl⟩
      unfold deinitSession
      dsimp only
      split
      · exact (later_invalidatePin).follows
      · exact later_unlockPin

end Counts

section Use

-- What holds of the PINs while the UUID-E finds the right one: the PIN of a session is locked, and one that
-- was revealed is gone, or still that of the session that revealed it.
structure UseInv (w : World) : Prop where
  held : ∀ sid h id, w.sessions sid = some h → h.pin = some id → id < w.next
  shown : ∀ id ∈ w.revealed, id < w.next
  locked : ∀ sid h id, w.sessions sid = some h → h.pin = some id →
    ∀ p ∈ w.pins, p.id = id → p.locked = true
  one : OneHolder w
  late : ∀ sid h, w.sessions sid = some h → h.data.pinRevealed = true → ¬early h.data.state
  spent : ∀ id ∈ w.revealed, Gone w.pins id ∨
    ∃ sid h, w.sessions sid = some h ∧ h.pin = some id ∧ h.data.pinRevealed = true

variable {c : Crypto} {w w' : World}

theorem UseInv.handed {q : Pin} (h : UseInv w) (hq : q ∈ w.pins) (hlocked : q.locked = false)
    (hwild : q.wildcard ≤ 2) :
    (∀ sid x, w.sessions sid = some x → x.pin ≠ some q.id) ∧ q.id ∉ w.revealed := by
  have hnone : ∀ sid x, w.sessions sid = some x → x.pin ≠ some q.id := by
    intro sid x hx hpin
    have hl := h.locked sid x q.id hx hpin q hq rfl
    rw [hlocked] at hl
    cases hl
  refine ⟨hnone, fun hrev => ?_⟩
  rcases h.spent q.id hrev with hgone | ⟨sid, x, hx, hpin, -⟩
  · have h3 := hgone q hq rfl
    omega
  · exact hnone sid x hx hpin

theorem UseInv.later (h : UseInv w) (hlater : Later Pin.Evolves w.pins w'.pins)
    (hsessions : w'.sessions = w.sessions) (hnext : w.next ≤ w'.next)
    (hrevealed : w'.revealed = w.revealed) : UseInv w' := by
  refine ⟨?_, ?_, ?_, ?_, ?_, ?_⟩
  · rw [hsessions]
    exact fun sid x id hx hpin => (h.held sid x id hx hpin).trans_le hnext
  · rw [hrevealed]
    exact fun id hid => (h.shown id hid).trans_le hnext
  · rw [hsessions]
    intro sid x id hx hpin p' hp' hid
    obtain ⟨p, hp, hpp⟩ := hlater.origin p' hp'
    exact hpp.locked (h.locked sid x id hx hpin p hp (hpp.id.symm.trans hid))
  · unfold OneHolder
    rw [hsessions]
    exact h.one
  · rw [hsessions]
    exact h.late
  · rw [hsessions, hrevealed]
    intro id hid
    exact (h.spent id hid).imp (fun hgone => hgone.later hlater.follows) (fun hex => hex)

variable {step : Step}

theorem heldAfter_cases {h : PinSession} {q : Option Pin} {id : ℕ} (hheld : heldAfter h step q = some id) :
    (asksPassword h.data step = false ∧ h.pin = some id) ∨ ∃ p, q = some p ∧ p.id = id := by
  unfold heldAfter at hheld
  split at hheld
  · split at hheld
    · obtain ⟨p, hp, hid⟩ := Option.map_eq_some_iff.mp hheld
      exact .inr ⟨p, hp, hid⟩
    · cases hheld
  · rename_i hasks
    exact .inl ⟨by simpa using hasks, hheld⟩

-- A session that is not at its start keeps its PIN and gets no other one.
theorem not_asksPassword {wps : WpsData} (h : ¬early wps.state) : asksPassword wps step = false := by
  have hstate : wps.state ≠ .sendM2 := fun hs => h (.inr hs)
  simp [asksPassword, hstate]

theorem late_call {P : Prop} {wps wps' : WpsData} {events : List Event} (h : PinEffect P wps wps' events)
    (hlate : wps.pinRevealed = true → ¬early wps.state) (hrevealed : wps'.pinRevealed = true) :
    ¬early wps'.state := by
  cases h with
  | idle hevents hsame hearly => exact fun h => hlate (hsame ▸ hrevealed) (hearly h)
  | m6 _ _ h => exact h
  | refused _ _ h => exact h
  | proved _ _ _ _ h => exact h

-- The PIN of the environment is not among what M7 is decrypted with.
theorem provesPin_withPin {wps : WpsData} {q : Option Pin} :
    provesPin c wps (withPin step q) = provesPin c wps step := rfl

theorem UseInv.call {sid : ℕ} {h : PinSession} (hinv : UseInv w) (hcount : CountInv w)
    (hx : w.sessions sid = some h) (hreg : h.data.registrar = true)
    (hown : h.data.state = .recvM7 → provesPin c h.data step = true → OwnFirst w h) :
    UseInv (callSession c w sid h step) := by
  have hspec := pinFor_spec w h.data step
  have hevents : Later Pin.Evolves (pinFor w h.data step).1 (callSession c w sid h step).pins :=
    later_call hreg
  have hlater := hspec.later.trans hevents
  have heffect : PinEffect (provesPin c h.data step = true) h.data (stepData c h.data (withPin step (pinFor w h.data step).2))
      (stepEvents c h.data (withPin step (pinFor w h.data step).2)) :=
    (call_effect hreg).imp fun hproves => provesPin_withPin.symm.trans hproves
  have hnew : ∀ q, (pinFor w h.data step).2 = some q →
      (∀ sid x, w.sessions sid = some x → x.pin ≠ some q.id) ∧ q.id ∉ w.revealed := by
    intro q hq
    obtain ⟨hmem, hunlocked, -, h2⟩ := hspec.handed q hq
    exact hinv.handed hmem hunlocked h2
  have hsessions : ∀ sid' x, (callSession c w sid h step).sessions sid' = some x →
      (sid' = sid ∧ x = ⟨stepData c h.data (withPin step (pinFor w h.data step).2),
        heldAfter h step (pinFor w h.data step).2⟩) ∨ (sid' ≠ sid ∧ w.sessions sid' = some x) := by
    intro sid' x hx'
    simp only [callSession, Function.update_apply] at hx'
    split at hx'
    · rename_i heq
      exact .inl ⟨heq, (Option.some.inj hx').symm⟩
    · rename_i hne
      exact .inr ⟨hne, hx'⟩
  have hfresh : ∀ id, heldAfter h step (pinFor w h.data step).2 = some id → id < w.next := by
    intro id hid
    rcases heldAfter_cases hid with ⟨-, hpin⟩ | ⟨q, hq, rfl⟩
    · exact hinv.held sid h id hx hpin
    · exact hcount.fresh q (hspec.handed q hq).1
  refine ⟨?_, ?_, ?_, ?_, ?_, ?_⟩
  · intro sid' x id hx' hpin
    rcases hsessions sid' x hx' with ⟨-, rfl⟩ | ⟨-, hold⟩
    · exact hfresh id hpin
    · exact hinv.held sid' x id hold hpin
  · intro id hid
    rcases List.mem_append.mp hid with hid | hid
    · split at hid
      · exact hfresh id (by simpa using hid)
      · cases hid
    · exact hinv.shown id hid
  · intro sid' x id hx' hpin p' hp' hid
    obtain ⟨p, hp, hpp⟩ := hlater.origin p' hp'
    rcases hsessions sid' x hx' with ⟨-, rfl⟩ | ⟨-, hold⟩
    · rcases heldAfter_cases hpin with ⟨-, hpin⟩ | ⟨q, hq, rfl⟩
      · exact hpp.locked (hinv.locked sid h id hx hpin p hp (hpp.id.symm.trans hid))
      · obtain ⟨p₁, hp₁, hpp₁⟩ := hevents.origin p' hp'
        exact hpp₁.locked (hspec.locks q hq hcount.nodup p₁ hp₁ (hpp₁.id.symm.trans hid))
    · exact hpp.locked (hinv.locked sid' x id hold hpin p hp (hpp.id.symm.trans hid))
  · -- a PIN that is handed out has no holder
    have hother : ∀ sid' x id, sid' ≠ sid → w.sessions sid' = some x → x.pin = some id →
        heldAfter h step (pinFor w h.data step).2 = some id → False := by
      intro sid' x id hne hold hpin hheld
      rcases heldAfter_cases hheld with ⟨-, hpin'⟩ | ⟨q, hq, rfl⟩
      · exact hne (hinv.one sid' sid x h id hold hx hpin hpin')
      · exact (hnew q hq).1 sid' x hold hpin
    intro sid₁ sid₂ x₁ x₂ id hx₁ hx₂ hpin₁ hpin₂
    rcases hsessions sid₁ x₁ hx₁ with ⟨rfl, rfl⟩ | ⟨hne₁, hold₁⟩ <;>
      rcases hsessions sid₂ x₂ hx₂ with ⟨rfl, rfl⟩ | ⟨hne₂, hold₂⟩
    · rfl
    · exact (hother sid₂ x₂ id hne₂ hold₂ hpin₂ hpin₁).elim
    · exact (hother sid₁ x₁ id hne₁ hold₁ hpin₁ hpin₂).elim
    · exact hinv.one sid₁ sid₂ x₁ x₂ id hold₁ hold₂ hpin₁ hpin₂
  · intro sid' x hx' hrevealed
    rcases hsessions sid' x hx' with ⟨-, rfl⟩ | ⟨-, hold⟩
    · exact late_call heffect (hinv.late sid h hx) hrevealed
    · exact hinv.late sid' x hold hrevealed
  · intro id hid
    have hself : (callSession c w sid h step).sessions sid =
        some ⟨stepData c h.data (withPin step (pinFor w h.data step).2),
          heldAfter h step (pinFor w h.data step).2⟩ := by simp [callSession]
    rcases List.mem_append.mp hid with hid | hid
    · split at hid
      · rename_i hrevealed
        exact .inr ⟨sid, _, hself, by simpa using hid, hrevealed⟩
      · cases hid
    rcases hinv.spent id hid with hgone | ⟨sid', x, hx', hpin, hrevealed⟩
    · exact .inl (hgone.later hlater.follows)
    by_cases hsid : sid' = sid
    · subst hsid
      obtain rfl : h = x := Option.some.inj (hx.symm.trans hx')
      have hasks : asksPassword h.data step = false :=
        not_asksPassword (hinv.late sid' h hx hrevealed)
      have hheld : heldAfter h step (pinFor w h.data step).2 = some id := by
        simp [heldAfter, hasks, hpin]
      by_cases hstill : (stepData c h.data (withPin step (pinFor w h.data step).2)).pinRevealed = true
      · exact .inr ⟨sid', _, hself, hheld, hstill⟩
      left
      have hpins : (pinFor w h.data step).1 = w.pins := by simp [pinFor, asksPin, hasks]
      cases heffect with
      | idle _ hsame _ => exact absurd (hsame.trans hrevealed) hstill
      | m6 _ hr _ => exact absurd hr hstill
      | refused _ hsame _ => exact absurd (hsame.trans hrevealed) hstill
      | proved hproves hstate hfold _ _ =>
        have hgone : Gone (invalidatePin (unlockPin w.pins h.data.uuidE) h.data.uuidE) id :=
          gone_unlock_invalidate hcount.nodup
            (fun p hp hpid h3 => hown hstate hproves p hp (hpid ▸ hpin) h3)
        have heq : (callSession c w sid' h step).pins =
            invalidatePin (unlockPin w.pins h.data.uuidE) h.data.uuidE := by
          rw [← hpins]
          exact hfold _
        rw [heq]
        exact hgone
    · refine .inr ⟨sid', x, ?_, hpin, hrevealed⟩
      simpa [callSession, hsid] using hx'

-- What the end of a session leaves of the PINs
theorem mem_unlockPin {pins : List Pin} {uuid : BitVec 128} {p : Pin} (h : p ∈ unlockPin pins uuid) :
    p ∈ pins ∨ ∃ q, pins.find? (Pin.isFor uuid) = some q ∧ q.wildcard ≠ 3 ∧ p = q.unlock := by
  unfold unlockPin at h
  split at h
  · exact .inl h
  rename_i q hfind
  split at h
  · exact .inl (List.mem_of_mem_eraseP h)
  rename_i h3
  rcases mem_modifyFirst h with hmem | ⟨q', hfind', rfl⟩
  · exact .inl hmem
  rw [hfind] at hfind'
  cases hfind'
  exact .inr ⟨q, hfind, h3, rfl⟩

theorem UseInv.deinit {sid : ℕ} {h : PinSession} (hinv : UseInv w) (hcount : CountInv w)
    (hx : w.sessions sid = some h) (hown : h.data.pinRevealed = true → OwnFirst w h)
    (hothers : h.data.pinRevealed = false → NotOthers w sid h) : UseInv (deinitSession w sid h) := by
  have hsessions : ∀ sid' x, (deinitSession w sid h).sessions sid' = some x →
      sid' ≠ sid ∧ w.sessions sid' = some x := by
    intro sid' x hx'
    simp only [deinitSession, Function.update_apply] at hx'
    split at hx'
    · cases hx'
    · rename_i hne
      exact ⟨hne, hx'⟩
  have hlater : Later Pin.Follows w.pins (deinitSession w sid h).pins := by
    unfold deinitSession
    dsimp only
    split
    · exact (later_invalidatePin).follows
    · exact later_unlockPin
  refine ⟨?_, hinv.shown, ?_, ?_, ?_, ?_⟩
  · exact fun sid' x id hx' hpin => hinv.held sid' x id (hsessions sid' x hx').2 hpin
  · intro sid' x id hx' hpin p hp hid
    obtain ⟨hne, hold⟩ := hsessions sid' x hx'
    have hlocked := hinv.locked sid' x id hold hpin
    cases hrevealed : h.data.pinRevealed with
    | true =>
      simp only [deinitSession, hrevealed, if_true] at hp
      exact hlocked p (List.mem_of_mem_eraseP hp) hid
    | false =>
      simp only [deinitSession, hrevealed, Bool.false_eq_true, if_false] at hp
      rcases mem_unlockPin hp with hp | ⟨q, hfind, h3, rfl⟩
      · exact hlocked p hp hid
      · have hpin' : x.pin = some q.id := hpin.trans (congrArg some hid.symm)
        exact absurd (hothers hrevealed q hfind h3 sid' x hold hpin') hne
  · intro sid₁ sid₂ x₁ x₂ id hx₁ hx₂ hpin₁ hpin₂
    exact hinv.one sid₁ sid₂ x₁ x₂ id (hsessions _ _ hx₁).2 (hsessions _ _ hx₂).2 hpin₁ hpin₂
  · exact fun sid' x hx' => hinv.late sid' x (hsessions sid' x hx').2
  · intro id hid
    rcases hinv.spent id hid with hgone | ⟨sid', x, hx', hpin, hrevealed⟩
    · exact .inl (hgone.later hlater)
    by_cases hsid : sid' = sid
    · subst hsid
      obtain rfl : h = x := Option.some.inj (hx.symm.trans hx')
      left
      have hgone : Gone (invalidatePin w.pins h.data.uuidE) id :=
        gone_invalidatePin hcount.nodup (fun p hp hpid h3 => hown hrevealed p hp (hpid ▸ hpin) h3)
      simpa [deinitSession, hrevealed] using hgone
    · refine .inr ⟨sid', x, ?_, hpin, hrevealed⟩
      simpa [deinitSession, hsid] using hx'

theorem UseInv.addPin {uuid : Option (BitVec 128)} {pin : Octets} {timeout : ℤ} (hinv : UseInv w) :
    UseInv (pinExec c w (.addPin uuid pin timeout)) := by
  refine ⟨?_, ?_, ?_, hinv.one, hinv.late, ?_⟩
  · exact fun sid x id hx hpin => Nat.lt_succ_of_lt (hinv.held sid x id hx hpin)
  · exact fun id hid => Nat.lt_succ_of_lt (hinv.shown id hid)
  · intro sid x id hx hpin p hp hid
    rcases List.mem_cons.mp hp with rfl | hp
    · have hlt := hinv.held sid x id hx hpin
      simp only [newPin] at hid
      omega
    · exact hinv.locked sid x id hx hpin p hp hid
  · intro id hid
    refine (hinv.spent id hid).imp (fun hgone p hp hpid => ?_) (fun hex => hex)
    rcases List.mem_cons.mp hp with rfl | hp
    · have hlt := hinv.shown id hid
      simp only [newPin] at hpid
      omega
    · exact hgone p hp hpid

theorem UseInv.start {sid : ℕ} {data : WpsData} (hinv : UseInv w) (hx : w.sessions sid = none)
    (hrevealed : data.pinRevealed = false) :
    UseInv { w with sessions := Function.update w.sessions sid (some ⟨data, none⟩) } := by
  have hsessions : ∀ sid' x, Function.update w.sessions sid (some ⟨data, none⟩) sid' = some x →
      x = ⟨data, none⟩ ∨ w.sessions sid' = some x := by
    intro sid' x hx'
    rw [Function.update_apply] at hx'
    split at hx'
    · exact .inl (Option.some.inj hx').symm
    · exact .inr hx'
  refine ⟨?_, hinv.shown, ?_, ?_, ?_, ?_⟩
  · intro sid' x id hx' hpin
    rcases hsessions sid' x hx' with rfl | hold
    · cases hpin
    · exact hinv.held sid' x id hold hpin
  · intro sid' x id hx' hpin
    rcases hsessions sid' x hx' with rfl | hold
    · cases hpin
    · exact hinv.locked sid' x id hold hpin
  · intro sid₁ sid₂ x₁ x₂ id hx₁ hx₂ hpin₁ hpin₂
    rcases hsessions sid₁ x₁ hx₁ with rfl | hold₁
    · cases hpin₁
    rcases hsessions sid₂ x₂ hx₂ with rfl | hold₂
    · cases hpin₂
    · exact hinv.one sid₁ sid₂ x₁ x₂ id hold₁ hold₂ hpin₁ hpin₂
  · intro sid' x hx' hr
    rcases hsessions sid' x hx' with rfl | hold
    · rw [hrevealed] at hr
      cases hr
    · exact hinv.late sid' x hold hr
  · intro id hid
    refine (hinv.spent id hid).imp (fun hgone => hgone) ?_
    rintro ⟨sid', x, hx', hpin, hr⟩
    have hne : sid' ≠ sid := by
      rintro rfl
      rw [hx] at hx'
      cases hx'
    exact ⟨sid', x, by simpa [hne] using hx', hpin, hr⟩

theorem use_step (op : PinOp) (hbasic : CountInv w ∧ AllRegistrars w) (hinv : UseInv w)
    (hfinds : FindsOwn c w op) : UseInv (pinExec c w op) := by
  obtain ⟨hcount, hreg⟩ := hbasic
  cases op with
  | addPin uuid pin timeout => exact hinv.addPin
  | cancel => exact hinv.later (Later.of_sublist List.eraseP_sublist) rfl le_rfl rfl
  | tick now => exact hinv.later (Later.of_sublist (List.Sublist.refl _)) rfl le_rfl rfl
  | start sid ctx cfg =>
    cases hx : w.sessions sid with
    | some x => simpa only [pinExec, hx] using hinv
    | none =>
      simp only [pinExec, hx]
      exact hinv.start hx rfl
  | call sid step =>
    cases hx : w.sessions sid with
    | none => simpa only [pinExec, hx] using hinv
    | some x =>
      simp only [pinExec, hx]
      exact hinv.call hcount hx (hreg sid x hx) (hfinds x hx)
  | deinit sid =>
    cases hx : w.sessions sid with
    | none => simpa only [pinExec, hx] using hinv
    | some x =>
      simp only [pinExec, hx]
      obtain ⟨hown, hothers⟩ := hfinds x hx
      exact hinv.deinit hcount hx hown hothers

end Use

-- A PIN is handed out only before it expires, and one for any UUID for two sessions at most, in every run.
-- Where the UUID-E finds the right PIN in every step, no two sessions have the same PIN, and none is handed
-- out after it was revealed.
theorem pin_used_by_one_session (c : Crypto) (now : OsTime) (w : World)
    (hrun : Runs (pinExec c) (fun _ _ => True) { now := now } w) :
    (∀ op q, handsOut w op = some q → q.expired w.now = false) ∧
    (∀ id ∈ w.wild, handCount w id ≤ 2) ∧
    (Runs (pinExec c) (FindsOwn c) { now := now } w →
      OneHolder w ∧ ∀ op q, handsOut w op = some q → q.id ∉ w.revealed) := by
  have hstart : CountInv { now := now } ∧ AllRegistrars { now := now } := by
    refine ⟨⟨?_, ?_, ?_, ?_, ?_, ?_, ?_⟩, ?_⟩ <;> simp [AllRegistrars]
  have hbasic : CountInv w ∧ AllRegistrars w :=
    hrun.rule (I := fun u => CountInv u ∧ AllRegistrars u) hstart (fun u op h _ => basic_step op h)
  have hspec : ∀ op q, handsOut w op = some q → q ∈ w.pins ∧ q.locked = false ∧
      q.expired w.now = false ∧ q.wildcard ≤ 2 := by
    intro op q hq
    cases op with
    | call sid step =>
      obtain ⟨h, -, hq⟩ := Option.bind_eq_some_iff.mp hq
      exact (pinFor_spec w h.data step).handed q hq
    | _ => cases hq
  refine ⟨fun op q hq => (hspec op q hq).2.2.1, hbasic.1.twice, fun hsafe => ?_⟩
  have huse : (CountInv w ∧ AllRegistrars w) ∧ UseInv w := by
    refine hsafe.rule (I := fun u => (CountInv u ∧ AllRegistrars u) ∧ UseInv u) ⟨hstart, ?_⟩
      (fun u op h hok => ⟨basic_step op h.1, use_step op h.1 h.2 hok⟩)
    refine ⟨?_, ?_, ?_, ?_, ?_, ?_⟩ <;> simp [OneHolder]
  refine ⟨huse.2.one, fun op q hq => ?_⟩
  obtain ⟨hmem, hunlocked, -, h2⟩ := hspec op q hq
  exact (huse.2.handed hmem hunlocked h2).2

def sampleM1 (uuid : BitVec 128) : Octets :=
  ((getMsg lengthCrypto enrolleeEnv { uuid := uuid }
    (init { uuid := uuid } { registrar := false, pin := some [49, 50, 51, 52] })).2.1.map Prod.snd).getD []

def answerOps (sid : ℕ) (uuid : BitVec 128) : List PinOp :=
  [.start sid { ap := true } { registrar := true },
    .call sid ⟨registrarEnv, { ap := true }, .processMsg .msg (sampleM1 uuid)⟩,
    .call sid ⟨registrarEnv, { ap := true }, .getMsg⟩]

theorem findsOwn_call {w : World} {sid : ℕ} {step : Step}
    (h : (w.sessions sid).all (fun x => x.data.state ≠ .recvM7) = true) : FindsOwn c w (.call sid step) := by
  rintro x hx hstate -
  simp [hx, hstate] at h

theorem findsOwn_deinit {w : World} {sid : ℕ} (hone : OneHolder w)
    (h : (w.sessions sid).all (fun x => !x.data.pinRevealed &&
      (w.pins.find? (Pin.isFor x.data.uuidE)).all fun p => x.pin = some p.id) = true) :
    FindsOwn c w (.deinit sid) := by
  intro x hx
  rw [hx, Option.all_some, Bool.and_eq_true] at h
  refine ⟨fun hrevealed => ?_, fun _ p hp _ sid' x' hx' hpin => ?_⟩
  · simp [hrevealed] at h
  · have hown : x.pin = some p.id := by simpa [hp] using h.2
    exact hone sid' sid x' x p.id hx' hx hpin hown

def ownOps : List PinOp :=
  [.addPin (some 9) [49, 50, 51, 52] 0, .addPin (some 8) [53, 54, 55, 56] 0] ++ answerOps 0 9 ++ answerOps 1 8

def twoSessions : World := ownOps.foldl (pinExec lengthCrypto) { now := ⟨0, 0⟩ }

def thirdSession : World := (PinOp.deinit 0 :: answerOps 2 9).foldl (pinExec lengthCrypto) twoSessions

set_option maxRecDepth 100000 in
theorem pin_used_by_one_session_own :
    (twoSessions.sessions 0).bind PinSession.pin = some 0 ∧ (twoSessions.sessions 1).bind PinSession.pin = some 1 ∧
      (thirdSession.sessions 2).bind PinSession.pin = some 0 ∧ OneHolder thirdSession := by
  have hfree (ops : List PinOp) (w : World) :
      Runs (pinExec lengthCrypto) (fun _ _ => True) w (ops.foldl (pinExec lengthCrypto) w) :=
    Runs.of_free _ fun _ _ => trivial
  have hbefore : Runs (pinExec lengthCrypto) (FindsOwn lengthCrypto) { now := ⟨0, 0⟩ } twoSessions :=
    Runs.of_list ownOps ⟨trivial, trivial, trivial, findsOwn_call rfl, findsOwn_call rfl, trivial,
      findsOwn_call rfl, findsOwn_call rfl, trivial⟩
  have hone : OneHolder twoSessions :=
    ((pin_used_by_one_session lengthCrypto ⟨0, 0⟩ twoSessions (hfree _ _)).2.2 hbefore).1
  have hafter : Runs (pinExec lengthCrypto) (FindsOwn lengthCrypto) twoSessions thirdSession :=
    Runs.of_list _ ⟨findsOwn_deinit hone rfl, trivial, findsOwn_call rfl, findsOwn_call rfl, trivial⟩
  exact ⟨rfl, rfl, rfl, ((pin_used_by_one_session lengthCrypto ⟨0, 0⟩ thirdSession
    ((hfree _ _).trans (hfree _ _))).2.2 (hbefore.trans hafter)).1⟩

-- Three sessions for one UUID: the end of the second one, which got no PIN, unlocks the PIN of the first
-- one for the third.
def sharedRun : World :=
  (PinOp.addPin (some 9) [49, 50, 51, 52] 0 :: (answerOps 0 9 ++ answerOps 1 9 ++ [.deinit 1] ++
    answerOps 2 9)).foldl (pinExec lengthCrypto) { now := ⟨0, 0⟩ }

set_option maxRecDepth 100000 in
theorem pin_used_by_two_sessions :
    Runs (pinExec lengthCrypto) (fun _ _ => True) { now := ⟨0, 0⟩ } sharedRun ∧
      (sharedRun.sessions 0).bind PinSession.pin = some 0 ∧
      (sharedRun.sessions 2).bind PinSession.pin = some 0 ∧ ¬OneHolder sharedRun := by
  have hfirst : (sharedRun.sessions 0).bind PinSession.pin = some 0 := rfl
  have hthird : (sharedRun.sessions 2).bind PinSession.pin = some 0 := rfl
  refine ⟨Runs.of_free _ fun _ _ => trivial, hfirst, hthird, fun hone => ?_⟩
  obtain ⟨x, hx, hpin⟩ := Option.bind_eq_some_iff.mp hfirst
  obtain ⟨x', hx', hpin'⟩ := Option.bind_eq_some_iff.mp hthird
  exact absurd (hone 0 2 x x' 0 hx hx' hpin hpin') (by decide)

end WpaSupplicant.Wps

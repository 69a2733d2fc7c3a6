import WpaSupplicant.Wps.Pins
import WpaSupplicant.Wps.Proof.Registrar

namespace WpaSupplicant.Wps

open Lib.FirstMatch

section Pins

variable {p p' q : Pin} {pins pins' pins'' : List Pin} {uuid : BitVec 128} {now : OsTime}

-- A PIN later on: it may be assigned to other Enrollees.
structure Pin.Follows (p p' : Pin) : Prop where
  id : p'.id = p.id
  le : p.wildcard ≤ p'.wildcard
  zero : p.wildcard = 0 → p'.wildcard = 0
  bound : p.wildcard ≤ 3 → p'.wildcard ≤ 3

-- It is not unlocked.
structure Pin.Evolves (p p' : Pin) : Prop extends Pin.Follows p p' where
  locked : p.locked = true → p'.locked = true

theorem Pin.Follows.refl (p : Pin) : p.Follows p := ⟨rfl, le_rfl, fun h => h, fun h => h⟩
theorem Pin.Evolves.refl (p : Pin) : p.Evolves p := ⟨.refl p, fun h => h⟩

theorem Pin.Evolves.trans {p'' : Pin} (h : p.Evolves p') (h' : p'.Evolves p'') : p.Evolves p'' :=
  ⟨⟨h'.id.trans h.id, h.le.trans h'.le, fun h0 => h'.zero (h.zero h0), fun h3 => h'.bound (h.bound h3)⟩,
    fun hl => h'.locked (h.locked hl)⟩

-- The PINs later on: no other ones, each at most once
structure Later (R : Pin → Pin → Prop) (pins pins' : List Pin) : Prop where
  origin : ∀ p' ∈ pins', ∃ p ∈ pins, R p p'
  nodup : (pins.map Pin.id).Nodup → (pins'.map Pin.id).Nodup

theorem Later.follows (h : Later Pin.Evolves pins pins') : Later Pin.Follows pins pins' where
  origin p' hp' := by
    obtain ⟨p, hp, hpp⟩ := h.origin p' hp'
    exact ⟨p, hp, hpp.toFollows⟩
  nodup := h.nodup

theorem Later.trans (h : Later Pin.Evolves pins pins') (h' : Later Pin.Evolves pins' pins'') :
    Later Pin.Evolves pins pins'' where
  origin p'' hp'' := by
    obtain ⟨p', hp', hpp'⟩ := h'.origin p'' hp''
    obtain ⟨p, hp, hpp⟩ := h.origin p' hp'
    exact ⟨p, hp, hpp.trans hpp'⟩
  nodup hnodup := h'.nodup (h.nodup hnodup)

theorem Later.of_sublist (h : List.Sublist pins' pins) : Later Pin.Evolves pins pins' where
  origin p' hp' := ⟨p', h.subset hp', .refl p'⟩
  nodup hnodup := hnodup.sublist (h.map _)

theorem later_modifyFirst {P : Pin → Bool} {f : Pin → Pin}
    (hf : ∀ p ∈ pins, P p = true → p.Evolves (f p)) (hid : ∀ p, (f p).id = p.id) :
    Later Pin.Evolves pins (modifyFirst P f pins) where
  origin p' hp' := by
    rcases mem_modifyFirst hp' with hmem | ⟨p, hfind, rfl⟩
    · exact ⟨p', hmem, .refl p'⟩
    · exact ⟨p, List.mem_of_find?_eq_some hfind,
        hf p (List.mem_of_find?_eq_some hfind) (List.find?_some hfind)⟩
  nodup hnodup := by
    rw [map_modifyFirst hid]
    exact hnodup

def Gone (pins : List Pin) (id : ℕ) : Prop := ∀ p ∈ pins, p.id = id → p.wildcard = 3

theorem Gone.later {id : ℕ} (h : Gone pins id) (hlater : Later Pin.Follows pins pins') :
    Gone pins' id := by
  intro p' hp' hid
  obtain ⟨p, hp, hpp⟩ := hlater.origin p' hp'
  have h3 := h p hp (hpp.id.symm.trans hid)
  have hle := hpp.le
  have hbound := hpp.bound h3.le
  omega

theorem later_expirePins : Later Pin.Evolves pins (expirePins now pins) := .of_sublist List.filter_sublist

theorem later_invalidatePin : Later Pin.Evolves pins (invalidatePin pins uuid) :=
  .of_sublist List.eraseP_sublist

theorem later_unlock_invalidate :
    Later Pin.Evolves pins (invalidatePin (unlockPin pins uuid) uuid) := by
  refine .of_sublist ?_
  unfold unlockPin
  split
  · exact List.eraseP_sublist
  split
  · exact List.eraseP_sublist.trans List.eraseP_sublist
  unfold invalidatePin
  rw [eraseP_modifyFirst (f := Pin.unlock) (fun p => rfl)]
  exact List.eraseP_sublist

theorem gone_invalidatePin {id : ℕ} (hnodup : (pins.map Pin.id).Nodup)
    (hfirst : ∀ p ∈ pins, p.id = id → p.wildcard ≠ 3 → pins.find? (Pin.isFor uuid) = some p) :
    Gone (invalidatePin pins uuid) id := by
  intro p hp hid
  by_contra h3
  have hfind := hfirst p (List.mem_of_mem_eraseP hp) hid h3
  exact key_not_mem_eraseP hnodup hfind hp rfl

theorem gone_unlock_invalidate {id : ℕ} (hnodup : (pins.map Pin.id).Nodup)
    (hfirst : ∀ p ∈ pins, p.id = id → p.wildcard ≠ 3 → pins.find? (Pin.isFor uuid) = some p) :
    Gone (invalidatePin (unlockPin pins uuid) uuid) id := by
  have hgone := gone_invalidatePin hnodup hfirst
  unfold unlockPin
  split
  · exact hgone
  split
  · exact hgone.later (later_invalidatePin).follows
  unfold invalidatePin
  rw [eraseP_modifyFirst (f := Pin.unlock) (fun p => rfl)]
  exact hgone

-- What `wps_registrar_get_pin` leaves and hands out
structure GetPin (now : OsTime) (pins : List Pin) (r : List Pin × Option Pin) : Prop where
  later : Later Pin.Evolves pins r.1
  handed : ∀ q, r.2 = some q → q ∈ pins ∧ q.locked = false ∧ q.expired now = false ∧ q.wildcard ≤ 2
  locks : ∀ q, r.2 = some q → (pins.map Pin.id).Nodup → ∀ p ∈ r.1, p.id = q.id → p.locked = true
  counts : ∀ q, r.2 = some q → (pins.map Pin.id).Nodup → q.wildcard ≠ 0 →
    ∀ p ∈ r.1, p.id = q.id → p.wildcard = q.wildcard + 1

theorem mem_expirePins (h : p ∈ expirePins now pins) : p ∈ pins ∧ p.expired now = false := by
  simpa [expirePins] using h

theorem Later.trans_expire (h : Later Pin.Evolves (expirePins now pins) pins') :
    Later Pin.Evolves pins pins' where
  origin p' hp' := by
    obtain ⟨p, hp, hpp⟩ := h.origin p' hp'
    exact ⟨p, (mem_expirePins hp).1, hpp⟩
  nodup hnodup := h.nodup ((later_expirePins).nodup hnodup)

theorem assign_follows (h : p.isWildcard = true) : p.Follows (p.assign uuid) := by
  simp only [Pin.isWildcard, Bool.or_eq_true, decide_eq_true_eq] at h
  refine ⟨rfl, Nat.le_succ _, fun h0 => ?_, fun _ => ?_⟩
  · omega
  · show p.wildcard + 1 ≤ 3
    omega

theorem assign_lock_evolves (h : p.isWildcard = true) : p.Evolves (p.assign uuid).lock := by
  have hassign : p.Follows (p.assign uuid) := assign_follows h
  exact ⟨⟨hassign.id, hassign.le, hassign.zero, hassign.bound⟩, fun _ => rfl⟩

theorem getPin_spec (now : OsTime) (pins : List Pin) (uuid : BitVec 128) :
    GetPin now pins (getPin now pins uuid) := by
  have hnone : ∀ l, Later Pin.Evolves (expirePins now pins) l → GetPin now pins (l, none) := fun l h =>
    ⟨h.trans_expire, by simp, by simp, by simp⟩
  have hexp : (pins.map Pin.id).Nodup → ((expirePins now pins).map Pin.id).Nodup :=
    (later_expirePins).nodup
  unfold getPin
  dsimp only
  split
  · rename_i q hfind
    have hq := mem_expirePins (List.mem_of_find?_eq_some hfind)
    have hspecific : q.wildcard = 0 := by
      have := List.find?_some hfind
      simp only [Pin.isSpecific, Bool.and_eq_true, decide_eq_true_eq] at this
      exact this.1
    split
    · exact hnone _ (.of_sublist (List.Sublist.refl _))
    rename_i hlocked
    refine ⟨?_, ?_, ?_, ?_⟩
    · exact (later_modifyFirst (f := Pin.lock) (fun p _ _ => ⟨⟨rfl, le_rfl, id, id⟩, fun _ => rfl⟩)
        (fun p => rfl)).trans_expire
    · rintro q' ⟨⟩
      exact ⟨hq.1, by simpa using hlocked, hq.2, by omega⟩
    · rintro q' ⟨⟩ hnodup p hp hid
      rw [modifyFirst_of_key (f := Pin.lock) (g := Pin.id) (fun p => rfl) (hexp hnodup) hfind hp hid]
      rfl
    · rintro q' ⟨⟩ - h
      exact absurd hspecific h
  · split
    · exact hnone _ (.of_sublist (List.Sublist.refl _))
    rename_i q hfind
    have hq := mem_expirePins (List.mem_of_find?_eq_some hfind)
    have hwild : q.wildcard = 1 ∨ q.wildcard = 2 := by
      have := List.find?_some hfind
      simpa only [Pin.isWildcard, Bool.or_eq_true, decide_eq_true_eq] using this
    split
    · exact hnone _ (later_modifyFirst (f := Pin.assign uuid) (fun p _ hp =>
        ⟨assign_follows hp, id⟩) (fun p => rfl))
    rename_i hlocked
    refine ⟨?_, ?_, ?_, ?_⟩
    · exact (later_modifyFirst (f := fun p => (p.assign uuid).lock)
        (fun p _ hp => assign_lock_evolves hp) (fun p => rfl)).trans_expire
    · rintro q' ⟨⟩
      exact ⟨hq.1, by simpa using hlocked, hq.2, by omega⟩
    · rintro q' ⟨⟩ hnodup p hp hid
      rw [modifyFirst_of_key (f := fun p => (p.assign uuid).lock) (g := Pin.id) (fun p => rfl)
        (hexp hnodup) hfind hp hid]
      rfl
    · rintro q' ⟨⟩ hnodup - p hp hid
      rw [modifyFirst_of_key (f := fun p => (p.assign uuid).lock) (g := Pin.id) (fun p => rfl)
        (hexp hnodup) hfind hp hid]
      rfl

end Pins

section Calls

variable {c : Crypto} {env : Env} {ctx : Context} {wps : WpsData} {msg : Octets} {attr : ParseAttr}

def early (state : State) : Prop := state = .recvM1 ∨ state = .sendM2

instance (state : State) : Decidable (early state) := inferInstanceAs (Decidable (_ ∨ _))

def Inert (events : List Event) : Prop := ∀ e ∈ events, ∀ pins, applyEvent pins e = pins

variable {events : List Event}

theorem Inert.foldl (h : Inert events) (pins : List Pin) : events.foldl applyEvent pins = pins := by
  induction events generalizing pins with
  | nil => rfl
  | cons e events ih =>
    rw [List.foldl_cons, h e List.mem_cons_self]
    exact ih (fun x hx => h x (List.mem_cons_of_mem _ hx)) pins

theorem Inert.append {l l' : List Event} (h : Inert l) (h' : Inert l') : Inert (l ++ l') := by
  intro e he
  rcases List.mem_append.mp he with he | he
  · exact h e he
  · exact h' e he

theorem inert_nil : Inert [] := by simp [Inert]

-- What a call of a session does to the PINs and to `wps_pin_revealed`; `proves` is where it proves the PIN.
inductive PinEffect (proves : Prop) (wps wps' : WpsData) (events : List Event) : Prop where
  | idle (hevents : Inert events) (hrevealed : wps'.pinRevealed = wps.pinRevealed)
      (hearly : early wps'.state → early wps.state)
  | m6 (hevents : Inert events) (hrevealed : wps'.pinRevealed = true) (hlate : ¬early wps'.state)
  | refused (hevents : ∀ pins, events.foldl applyEvent pins = invalidatePin pins wps.uuidE)
      (hrevealed : wps'.pinRevealed = wps.pinRevealed) (hlate : ¬early wps'.state)
  | proved (hproves : proves) (hstate : wps.state = .recvM7)
      (hevents : ∀ pins, events.foldl applyEvent pins =
        invalidatePin (unlockPin pins wps.uuidE) wps.uuidE)
      (hrevealed : wps'.pinRevealed = false) (hlate : ¬early wps'.state)

variable {P Q : Prop}

theorem PinEffect.imp {wps' : WpsData} (h : PinEffect P wps wps' events) (hPQ : P → Q) :
    PinEffect Q wps wps' events := by
  cases h with
  | idle hevents hrevealed hearly => exact .idle hevents hrevealed hearly
  | m6 hevents hrevealed hlate => exact .m6 hevents hrevealed hlate
  | refused hevents hrevealed hlate => exact .refused hevents hrevealed hlate
  | proved hproves hstate hevents hrevealed hlate =>
    exact .proved (hPQ hproves) hstate hevents hrevealed hlate

theorem PinEffect.saved {wps' : WpsData} (h : PinEffect P wps wps' events) (last : Option Octets) :
    PinEffect P wps { wps' with lastMsg := last } events := by
  cases h with
  | idle hevents hrevealed hearly => exact .idle hevents hrevealed hearly
  | m6 hevents hrevealed hlate => exact .m6 hevents hrevealed hlate
  | refused hevents hrevealed hlate => exact .refused hevents hrevealed hlate
  | proved hproves hstate hevents hrevealed hlate =>
    exact .proved hproves hstate hevents hrevealed hlate

theorem inert_failEvent {type : BitVec 8} : Inert (Enrollee.failEvent wps type) := by
  unfold Enrollee.failEvent
  split <;> simp [Inert, applyEvent]

theorem readM1_pinRevealed : (Registrar.readM1 env ctx wps attr).1.pinRevealed = wps.pinRevealed := by
  unfold Registrar.readM1
  repeat' split
  all_goals rfl

theorem processM1_effect :
    PinEffect P wps (Registrar.processM1 env ctx wps attr).1 (Registrar.processM1 env ctx wps attr).2.2 := by
  have hr : (Registrar.readM1 env ctx wps attr).1.pinRevealed = wps.pinRevealed := readM1_pinRevealed
  unfold Registrar.processM1
  split
  · exact .idle inert_nil rfl id
  rename_i hstate
  have hearly : early wps.state := .inl (not_not.mp hstate)
  split
  · rename_i heq
    rw [heq] at hr
    exact .idle inert_nil hr (fun _ => hearly)
  rename_i heq
  rw [heq] at hr
  split
  · exact .idle inert_nil hr (fun _ => hearly)
  split
  · exact .idle (by simp [Inert, applyEvent]) hr (fun _ => hearly)
  · exact .idle inert_nil hr (fun _ => hearly)

theorem checkMsg_error_pinRevealed {state : State} {wps' : WpsData}
    (h : Registrar.checkMsg c ctx wps msg attr state = .error wps') :
    wps'.pinRevealed = wps.pinRevealed := by
  unfold Registrar.checkMsg at h
  split at h
  · cases h
    rfl
  split at h
  · cases h
    rfl
  split at h
  · cases h
    rfl
  · cases h

theorem not_early_of_nack {w : WpsData} (h : w.state = .sendWscNack) : ¬early w.state := by
  simp [h, early]

theorem processM3_effect (hevents : Inert events) :
    PinEffect P wps (Registrar.processM3 c ctx wps msg attr) events := by
  refine .idle hevents ?_ ?_
  · unfold Registrar.processM3
    split
    · rename_i herror
      exact checkMsg_error_pinRevealed herror
    split
    · rfl
    · split <;> rfl
  · intro hearly
    obtain ⟨h, -⟩ | ⟨h1, h2, -, -, -, -, -, heq⟩ := processM3_cases c ctx wps msg attr
    · exact absurd hearly (not_early_of_nack h)
    · rw [heq] at hearly
      simp [early] at hearly

theorem processM5_effect (hevents : Inert events) :
    PinEffect P wps (Registrar.processM5 c env ctx wps msg attr).1
      ((Registrar.processM5 c env ctx wps msg attr).2 ++ events) := by
  refine .idle (Inert.append ?_ hevents) ?_ ?_
  · unfold Registrar.processM5
    split
    · exact inert_nil
    split
    · exact inert_nil
    unfold Registrar.processESnonce1
    dsimp only
    split
    · exact inert_nil
    · split <;> simp [Inert, applyEvent]
  · unfold Registrar.processM5
    split
    · rename_i herror
      exact checkMsg_error_pinRevealed herror
    split
    · rfl
    unfold Registrar.processESnonce1
    dsimp only
    split
    · rfl
    · split <;> rfl
  · intro hearly
    obtain ⟨h, -⟩ | ⟨plain, eattr, n, -, -, -, -, -, heq⟩ := processM5_cases c env ctx wps msg attr
    · exact absurd hearly (not_early_of_nack h)
    · rw [heq] at hearly
      simp [early] at hearly

theorem inert_processApSettingsR : Inert (Registrar.processApSettingsR env ctx wps attr).2.1 := by
  unfold Registrar.processApSettingsR
  split
  · exact inert_nil
  split
  · exact inert_nil
  split
  · exact inert_nil
  split
  · simp [Inert, applyEvent]
  · split <;> simp [Inert, applyEvent]

theorem processApSettingsR_pinRevealed :
    (Registrar.processApSettingsR env ctx wps attr).1.pinRevealed = wps.pinRevealed := by
  unfold Registrar.processApSettingsR
  split
  · rfl
  split
  · rfl
  split
  · rfl
  split
  · rfl
  · split <;> rfl

-- M7 uses up the PIN that it proves, and the one that it fails to prove.
theorem processM7_effect (hevents : Inert events) :
    PinEffect (provesM7 c env wps attr = true) wps (Registrar.processM7 c env ctx wps msg attr).1
      ((Registrar.processM7 c env ctx wps msg attr).2 ++ events) := by
  have hlate : ¬early (Registrar.processM7 c env ctx wps msg attr).1.state := by
    obtain ⟨h, -⟩ | ⟨plain, eattr, n, -, -, -, -, -, h, -⟩ := processM7_cases c env ctx wps msg attr
    · exact not_early_of_nack h
    · simp [h, early]
  cases hcheck : Registrar.checkMsg c ctx wps msg attr .recvM7 with
  | error w =>
    have heq : Registrar.processM7 c env ctx wps msg attr = (w, []) := by
      simp only [Registrar.processM7, hcheck]
    rw [heq] at hlate ⊢
    exact .idle hevents (checkMsg_error_pinRevealed hcheck) (fun h => absurd h hlate)
  | ok u =>
    obtain ⟨hstate, -, -⟩ := checkMsg_ok hcheck
    cases hopen : Enrollee.openSettings c env wps attr with
    | none =>
      have heq : Registrar.processM7 c env ctx wps msg attr = (Enrollee.refuse wps, []) := by
        simp only [Registrar.processM7, hcheck, hopen]
      rw [heq] at hlate ⊢
      exact .idle hevents rfl (fun h => absurd h hlate)
    | some r =>
      obtain ⟨plain, eattr⟩ := r
      simp only [Registrar.processM7, hcheck, hopen] at hlate ⊢
      unfold Registrar.processM7Settings Registrar.processESnonce2 at hlate ⊢
      cases hn : eattr.eSnonce2 with
      | none => exact .idle hevents rfl (by simp [early, Enrollee.refuse])
      | some n =>
        by_cases hcommit : wps.peerHash2 = commitment2 c wps.toSecrets n
        · simp only [hn, if_pos hcommit] at hlate ⊢
          have hinert : Inert (Registrar.processApSettingsR env ctx
            { wps with pinRevealed := false } eattr).2.1 := inert_processApSettingsR
          have hr : (Registrar.processApSettingsR env ctx
            { wps with pinRevealed := false } eattr).1.pinRevealed = false :=
              processApSettingsR_pinRevealed
          have hproves : provesM7 c env wps attr = true := by simp [provesM7, hopen, hn, hcommit]
          refine .proved hproves hstate (fun pins => ?_) ?_ hlate
          · rw [List.append_assoc, List.foldl_append, (hinert.append hevents).foldl]
            rfl
          · split
            · exact hr
            · exact hr
        · simp only [hn, if_neg hcommit] at hlate ⊢
          refine .refused (fun pins => ?_) rfl hlate
          rw [List.foldl_append, hevents.foldl]
          rfl

theorem saveMsg_effect {r : WpsData × Option Octets} (h : PinEffect P wps r.1 events) :
    PinEffect P wps (Enrollee.saveMsg env r).1 events := by
  unfold Enrollee.saveMsg
  split
  · exact h
  · exact h.saved _

theorem getDevPassword_effect :
    (Registrar.getDevPassword env wps).1.pinRevealed = wps.pinRevealed ∧
      Inert (Registrar.getDevPassword env wps).2.2 := by
  unfold Registrar.getDevPassword
  dsimp only
  split
  · exact ⟨rfl, by simp [Inert, applyEvent]⟩
  split
  · exact ⟨rfl, inert_nil⟩
  · exact ⟨rfl, inert_nil⟩

theorem deriveKeys_pinRevealed : (deriveKeys c wps).1.pinRevealed = wps.pinRevealed := by
  unfold deriveKeys
  split
  · split <;> rfl
  · rfl

theorem buildM2_pinRevealed : (Registrar.buildM2 c env ctx wps).1.pinRevealed = wps.pinRevealed := by
  unfold Registrar.buildM2
  split
  · rfl
  dsimp only
  split
  · rfl
  unfold buildPublicKey
  cases env.dh with
  | none => rfl
  | some pair =>
    dsimp only
    split <;> rename_i heq
    · have hkeys := congrArg (fun r => r.1.pinRevealed) heq
      rw [deriveKeys_pinRevealed] at hkeys
      refine hkeys.symm.trans ?_
      split <;> rfl
    · have hkeys := congrArg (fun r => r.1.pinRevealed) heq
      rw [deriveKeys_pinRevealed] at hkeys
      split
      · refine hkeys.symm.trans ?_
        split <;> rfl
      · refine hkeys.symm.trans ?_
        split <;> rfl

theorem buildM2d_pinRevealed : (Registrar.buildM2d env ctx wps).1.pinRevealed = wps.pinRevealed := by
  unfold Registrar.buildM2d
  split <;> rfl

theorem buildM4_pinRevealed : (Registrar.buildM4 c env ctx wps).1.pinRevealed = wps.pinRevealed := by
  unfold Registrar.buildM4
  dsimp only
  split
  · rfl
  split
  · rfl
  · split <;> rfl

theorem m8Settings_pinRevealed :
    (Registrar.m8Settings env ctx wps).1.pinRevealed = wps.pinRevealed := by
  have hmake : (Registrar.makeCred env ctx wps).1.pinRevealed = wps.pinRevealed := by
    unfold Registrar.makeCred
    dsimp only
    split
    · rfl
    split
    · rfl
    · split <;> rfl
  unfold Registrar.m8Settings
  split
  · unfold Registrar.buildCred
    dsimp only
    split
    · rfl
    cases wps.useCred with
    | some cred =>
      dsimp only
      split <;> rfl
    | none =>
      dsimp only
      split
      · rename_i heq
        rw [heq] at hmake
        exact hmake
      · rename_i heq
        rw [heq] at hmake
        split <;> exact hmake
  · rfl

theorem buildM8_pinRevealed : (Registrar.buildM8 c env ctx wps).1.pinRevealed = wps.pinRevealed := by
  have hkeeps : (Registrar.m8Settings env ctx wps).1.pinRevealed = wps.pinRevealed :=
    m8Settings_pinRevealed
  unfold Registrar.buildM8
  split
  · rfl
  split
  · rename_i heq
    rw [heq] at hkeeps
    exact hkeeps
  · rename_i heq
    rw [heq] at hkeeps
    split <;> exact hkeeps

theorem getMsg_effect :
    PinEffect P wps (Registrar.getMsg c env ctx wps).1 (Registrar.getMsg c env ctx wps).2.2 := by
  have hstay : PinEffect P wps wps [] := .idle inert_nil rfl id
  unfold Registrar.getMsg
  split
  · rename_i hstate
    obtain ⟨hr, hinert⟩ : (Registrar.getDevPassword env wps).1.pinRevealed = wps.pinRevealed ∧
      Inert (Registrar.getDevPassword env wps).2.2 := getDevPassword_effect
    unfold Registrar.answerM1
    refine saveMsg_effect (.idle hinert ?_ (fun _ => .inr hstate))
    split
    · exact (buildM2_pinRevealed).trans hr
    · exact (buildM2d_pinRevealed).trans hr
  · rename_i hstate
    refine saveMsg_effect (.idle inert_nil buildM2d_pinRevealed ?_)
    unfold Registrar.buildM2d
    split
    · exact id
    · simp [early]
  · rename_i hstate
    refine saveMsg_effect (.idle inert_nil buildM4_pinRevealed ?_)
    obtain ⟨h | h, -⟩ := buildM4_cases c env ctx wps
    · rw [h]
      exact id
    · simp [h, early]
  · refine saveMsg_effect ?_
    unfold Registrar.buildM6
    split
    · exact hstay
    split
    · exact hstay
    · exact .m6 inert_nil rfl (by simp [early])
  · rename_i hstate
    refine saveMsg_effect (.idle inert_nil buildM8_pinRevealed ?_)
    obtain ⟨h | ⟨h, -⟩, -⟩ := buildM8_cases c env ctx wps
    · simp [h, early]
    · rw [h]
      exact id
  · exact hstay
  · exact hstay
  · exact hstay

theorem finish_effect : (Registrar.finish ctx wps).1.pinRevealed = wps.pinRevealed ∧
    Inert (Registrar.finish ctx wps).2 := by
  have hmove : (Registrar.moveToConfigured ctx wps).1.pinRevealed = wps.pinRevealed ∧
      Inert (Registrar.moveToConfigured ctx wps).2 := by
    unfold Registrar.moveToConfigured
    split
    · exact ⟨rfl, inert_nil⟩
    split
    · exact ⟨rfl, by simp [Inert, applyEvent]⟩
    · exact ⟨rfl, inert_nil⟩
  have hown : ∀ w, (Registrar.ownCred ctx w).1.pinRevealed = w.pinRevealed ∧
      Inert (Registrar.ownCred ctx w).2 := by
    intro w
    unfold Registrar.ownCred
    split
    · exact ⟨rfl, by simp [Inert, applyEvent]⟩
    · exact ⟨rfl, inert_nil⟩
  refine ⟨(hown _).1.trans hmove.1, ?_⟩
  unfold Registrar.finish
  dsimp only
  refine (((Inert.append ?_ hmove.2).append (hown _).2).append ?_).append ?_
  · simp [Inert, applyEvent]
  · split <;> simp [Inert, applyEvent]
  · split <;> simp [Inert, applyEvent]

theorem endDone_effect {w : WpsData} (hw : w.pinRevealed = wps.pinRevealed)
    (hearly : early w.state → early wps.state) (hevents : Inert events) :
    PinEffect P wps (Registrar.endDone ctx w msg).1 (events ++ (Registrar.endDone ctx w msg).2.2) := by
  unfold Registrar.endDone Registrar.processWscDone
  by_cases hstate : w.state = .recvDone
  · cases Enrollee.acceptControl w msg wscDone with
    | none =>
      simp only [hstate, ne_eq, not_true_eq_false, if_false, if_true]
      exact .idle (hevents.append (by simp [Inert, applyEvent])) hw
        (by simp [early, Enrollee.refuse])
    | some attr =>
      obtain ⟨hr, hinert⟩ : (Registrar.finish ctx w).1.pinRevealed = w.pinRevealed ∧
        Inert (Registrar.finish ctx w).2 := finish_effect
      obtain ⟨hs, -⟩ : (Registrar.finish ctx w).1.state = w.state ∧
        (Registrar.finish ctx w).1.registrar = w.registrar := finish_keeps
      simp only [hstate, ne_eq, not_true_eq_false, if_false, reduceCtorEq]
      refine .idle (hevents.append hinert) (hr.trans hw) ?_
      rw [hs]
      exact hearly
  · simp only [hstate, ne_eq, not_false_eq_true, if_true]
    exact .idle (hevents.append (by simp [Inert, applyEvent])) hw (by simp [early, Enrollee.refuse])

theorem dispatch_effect {type : BitVec 8} :
    PinEffect (type = m7 ∧ provesM7 c env wps attr = true) wps
      (Registrar.dispatch c env ctx wps msg attr type).1
      (Registrar.dispatch c env ctx wps msg attr type).2.2 := by
  unfold Registrar.dispatch
  split
  · exact processM1_effect
  split
  · exact processM3_effect inert_failEvent
  split
  · exact processM5_effect inert_failEvent
  split
  · rename_i htype
    exact (processM7_effect inert_failEvent).imp fun hproves => ⟨htype, hproves⟩
  · exact .idle inert_nil rfl id

theorem processMsg_effect {opCode : OpCode} :
    PinEffect (provesPin c wps ⟨env, ctx, .processMsg opCode msg⟩ = true) wps
      (Registrar.processMsg c env ctx wps opCode msg).1
      (Registrar.processMsg c env ctx wps opCode msg).2.2 := by
  have hstay : PinEffect (provesPin c wps ⟨env, ctx, .processMsg opCode msg⟩ = true) wps wps [] :=
    .idle inert_nil rfl id
  unfold Registrar.processMsg
  split
  · unfold Registrar.processWscMsg
    split
    · exact hstay
    rename_i attr hattr
    split
    · exact .idle inert_nil rfl (by simp [early, Enrollee.refuse])
    rename_i type htype
    split
    · exact hstay
    have heffect : PinEffect (type = m7 ∧ provesM7 c env wps attr = true) wps
      (Registrar.dispatch c env ctx wps msg attr type).1
      (Registrar.dispatch c env ctx wps msg attr type).2.2 := dispatch_effect
    have hproves : type = m7 ∧ provesM7 c env wps attr = true →
        provesPin c wps ⟨env, ctx, .processMsg .msg msg⟩ = true := by
      rintro ⟨rfl, h⟩
      simp [provesPin, hattr, htype, h]
    split
    · rename_i heq
      rw [heq] at heffect
      exact (heffect.saved _).imp hproves
    · exact heffect.imp hproves
  · unfold Registrar.processWscAck
    split <;> exact hstay
  · unfold Registrar.processWscNack
    split
    · exact endDone_effect rfl (by simp [early, Enrollee.refuse]) inert_nil
    refine endDone_effect rfl (by simp [early, Enrollee.refuse]) ?_
    unfold Registrar.nackEvent
    split <;> simp [Inert, applyEvent]
  · exact endDone_effect rfl id inert_nil
  · exact hstay

theorem call_effect {step : Step} (hreg : wps.registrar = true) :
    PinEffect (provesPin c wps step = true) wps (stepData c wps step) (stepEvents c wps step) := by
  obtain ⟨env, ctx, op⟩ := step
  unfold stepData stepEvents
  cases op with
  | processMsg opCode msg =>
    simp only [processMsg, hreg, if_true]
    exact processMsg_effect
  | getMsg =>
    simp only [getMsg, hreg, if_true]
    exact getMsg_effect

end Calls

end WpaSupplicant.Wps

import WpaSupplicant.Ap.Mlme.Lemmas

namespace WpaSupplicant.Ap.Mlme

open Lib.Octets Lib.Machine Pmksa

-- What happens in a BSS: the frames of the stations and the reports on the responses, the timers,
-- the end of associations, and the changes of the PMKSA cache
inductive Op where
  | auth (f : AuthFrame) (ans : AuthAnswers)
  | assoc (f : AssocFrame) (ans : AssocAnswers)
  | assocCb (da : Addr) (status : Status) (added : Bool)
  | saQueryResponse (sa : Addr)
  | tick (now : OsTime)
  | fire (t : StaTimer) (inactiveSec : ℤ) (alloc : Bool)
  | disassoc (sa : Addr)
  | deauth (sa : Addr)
  | apStaDisassociate (addr : Addr)
  | apStaDeauthenticate (addr : Addr)
  | pmksaAdd (alloc : Option Ptr) (pmk : Octets) (spa : Addr) (sessionTimeout : ℤ) (akmp : KeyMgmt)
  | pmksaExpire

variable (cr : Crypto) (wpsValid : Octets → Bool)

def exec (b : Bss) (op : Op) : Bss :=
  if b.hung then b
  else
    match op with
    | .auth f ans => handleAuth b f ans
    | .assoc f ans => (handleAssoc cr wpsValid b f ans).getD { b with hung := true }
    | .assocCb da status added => handleAssocCb b da status added
    | .saQueryResponse sa => { b with hapd := withSta b.hapd sa (apStaStopSaQuery b.hapd) }
    | .tick now => { b with now := now }
    | .fire t inactiveSec alloc =>
      if t ∈ b.hapd.timers then
        b.deinit (fireTimer { b.hapd with timers := b.hapd.timers.erase t } t inactiveSec b.now alloc)
      else b
    | .disassoc sa => { b with hapd := withSta b.hapd sa (handleDisassoc b.hapd) }
    | .deauth sa => b.deinit (withSta b.hapd sa (apFreeSta b.hapd))
    | .apStaDisassociate addr => { b with hapd := withSta b.hapd addr (apStaDisassociate b.hapd) }
    | .apStaDeauthenticate addr =>
      { b with hapd := withSta b.hapd addr (apStaDeauthenticate b.hapd) }
    | .pmksaAdd alloc pmk spa sessionTimeout akmp =>
      { b with
        auth := pmksaCacheAuthAdd b.now.sec cr b.auth alloc pmk b.auth.addr spa sessionTimeout akmp }
    | .pmksaExpire => { b with auth := pmksaCacheExpire b.now.sec b.auth }

structure Bss.Initial (b : Bss) : Prop where
  hapd : b.hapd = Hapd.initial b.hapd.conf
  sms : ∀ addr, b.auth.sms addr = none

-- What holds between the stations and their state machines: a station with management frame
-- protection has one.
structure Inv (b : Bss) : Prop where
  table : StaInv b.hapd
  sm : ∀ p s, b.hapd.mem p = some s → s.flags.mfp → (b.auth.sms s.addr).isSome
  noFt : NoFt b.hapd

theorem Inv.initial {b : Bss} (h : b.Initial) : Inv b := by
  have hmem (p : StaPtr) : b.hapd.mem p = none := by
    rw [h.hapd]
    rfl
  refine ⟨?_, fun p s hs => ?_, fun p s hs => ?_⟩
  · rw [h.hapd]
    exact StaInv.initial _
  · rw [hmem] at hs
    cases hs
  · rw [hmem] at hs
    cases hs

variable {cr wpsValid} {b b' : Bss}

theorem Inv.of_quiet (h : Inv b) (hq : Quiet b.hapd b'.hapd)
    (hsms : ∀ addr, (b.auth.sms addr).isSome → (b'.auth.sms addr).isSome) : Inv b' := by
  refine ⟨hq.inv h.table, fun p s' hs' hmfp => ?_, hq.noFt h.noFt⟩
  obtain ⟨s, hs, hcore⟩ := hq.back hs'
  have haddr : s.addr = s'.addr := congrArg Prod.fst hcore
  have hmfp' : s.flags.mfp = s'.flags.mfp := congrArg Prod.snd hcore
  exact hsms s'.addr (haddr ▸ h.sm p s hs (hmfp' ▸ hmfp))

theorem Inv.deinit (h : Inv b) {hapd : Hapd MlmeSta} (htable : StaInv hapd) (hk : Keeps b.hapd hapd) :
    Inv (b.deinit hapd) := by
  refine ⟨htable, fun p s' hs' hmfp => ?_, fun p s' hs' => ?_⟩
  · obtain ⟨s, hs, haddr, -, hmfp'⟩ := hk p s' hs'
    have hget : apGetSta hapd s'.addr = some p := htable.apGetSta_eq_some.2 ⟨s', hs', rfl⟩
    simp only [Bss.deinit, hget, Option.isSome_some, if_true]
    exact haddr ▸ h.sm p s hs (hmfp' ▸ hmfp)
  · obtain ⟨s, hs, -, hext, -⟩ := hk p s' hs'
    exact hext ▸ h.noFt p s hs

-- A request gets no further than the frame that is sent, or the station with its address is found
-- and the request is checked.
theorem handleAssoc_cases {f : AssocFrame} {ans : AssocAnswers}
    (hres : handleAssoc cr wpsValid b f ans = some b') :
    (∃ frame, b' = b.send frame ∧ ∀ da reassoc, frame ≠ .assocResp da reassoc .success) ∨
      ∃ sta s b₁ status, b.hapd.mem sta = some s ∧ s.addr = f.sa ∧
        (s.flags.auth = true ∧ ans.tkipCountermeasures = false ∧
          f.listenInterval ≤ b.conf.maxListenInterval) ∧
        checkAssocIes cr wpsValid b sta s f.ies f.reassoc ans = some (b₁, status) ∧
        (status = .success ∧ b' = assocOk b₁ sta f ∨
          status ≠ .success ∧ b' = b₁.send (.assocResp f.sa f.reassoc status)) := by
  rw [handleAssoc] at hres
  split at hres
  · cases hres
    exact .inl ⟨_, rfl, by simp⟩
  rename_i sta hget
  obtain ⟨s, hs, haddr⟩ := exists_mem_of_apGetSta hget
  simp only [hs] at hres
  split at hres
  · cases hres
    exact .inl ⟨_, rfl, by simp⟩
  rename_i hauth
  split at hres
  · cases hres
    exact .inl ⟨_, rfl, by simp⟩
  rename_i htkip
  split at hres
  · cases hres
    exact .inl ⟨_, rfl, by simp⟩
  rename_i hlisten
  have hpre : s.flags.auth = true ∧ ans.tkipCountermeasures = false ∧
      f.listenInterval ≤ b.conf.maxListenInterval :=
    ⟨by simpa using hauth, by simpa using htkip, Nat.le_of_not_lt hlisten⟩
  split at hres
  · cases hres
  · rename_i b₁ hcheck
    cases hres
    exact .inr ⟨sta, s, b₁, .success, hs, haddr, hpre, hcheck, .inl ⟨rfl, rfl⟩⟩
  · rename_i b₁ resp hne hcheck
    cases hres
    exact .inr ⟨sta, s, b₁, resp, hs, haddr, hpre, hcheck, .inr ⟨hne, rfl⟩⟩

-- The last part of a request that is accepted
theorem assocOk_quiet (b : Bss) (sta : StaPtr) (f : AssocFrame) :
    Quiet b.hapd (assocOk b sta f).hapd ∧ (assocOk b sta f).auth = b.auth ∧
      ∃ frame, (assocOk b sta f).sent = frame :: b.sent ∧
        ∀ da reassoc status, frame = .assocResp da reassoc status → da = f.sa := by
  have hq := Quiet.hostapdGetAid b.hapd sta
  simp only [assocOk]
  split
  · exact ⟨hq, rfl, _, rfl, fun _ _ _ heq => by cases heq; rfl⟩
  · refine ⟨hq.trans (.assign ?_), rfl, _, rfl, fun _ _ _ heq => by cases heq; rfl⟩
    exact fun _ => ⟨rfl, rfl, rfl⟩

theorem Inv.setMfp (h : Inv b) {sta : StaPtr} {s : Sta} (hs : b.hapd.mem sta = some s)
    (hsm : (b.auth.sms s.addr).isSome) (mfp : Bool) :
    Inv { b with hapd := b.hapd.modify sta fun s => { s with flags.mfp := mfp } } := by
  refine ⟨h.table.modify _ fun _ => ⟨rfl, rfl⟩, fun p s' hs' hmfp => ?_,
    h.noFt.modify fun _ _ => id⟩
  by_cases hp : p = sta
  · subst hp
    simp only [Hapd.modify, Function.update_self, hs, Option.map_some] at hs'
    cases hs'
    exact hsm
  · simp only [Hapd.modify, Function.update_of_ne hp] at hs'
    exact h.sm p s' hs' hmfp

theorem Inv.checked (h : Inv b) {sta : StaPtr} {s : Sta} (hs : b.hapd.mem sta = some s)
    (hc : Checked b b' sta s.addr) : Inv b' := by
  have hsms (other : Addr) (hother : (b.auth.sms other).isSome) : (b'.auth.sms other).isSome := by
    by_cases heq : other = s.addr
    · subst heq
      exact hc.isSome hother
    · rwa [hc.others other heq]
  rcases hc.hapd with hq | ⟨hapd, mfp, hq, heq, hsome⟩
  · exact h.of_quiet hq hsms
  obtain ⟨s₁, hs₁, hcore⟩ := hq.forth hs
  have haddr : s₁.addr = s.addr := congrArg Prod.fst hcore
  have hinv : Inv { b' with hapd := hapd } := h.of_quiet hq hsms
  have hset := hinv.setMfp hs₁ (haddr ▸ hsome) mfp
  have hb' : b' = { { b' with hapd := hapd } with
      hapd := hapd.modify sta fun s => { s with flags.mfp := mfp } } := by rw [← heq]
  rw [hb']
  exact hset

theorem Inv.handleAssoc (h : Inv b) {f : AssocFrame} {ans : AssocAnswers}
    (hres : handleAssoc cr wpsValid b f ans = some b') : Inv b' := by
  rcases handleAssoc_cases hres with ⟨frame, rfl, -⟩ | ⟨sta, s, b₁, status, hs, -, -, hcheck, hend⟩
  · exact h.of_quiet (.refl _) fun _ => id
  have hinv := h.checked hs (checkAssocIes_checked hs hcheck)
  rcases hend with ⟨-, rfl⟩ | ⟨-, rfl⟩
  · obtain ⟨hq, hauth, -⟩ := assocOk_quiet b₁ sta f
    exact hinv.of_quiet hq fun addr => by rw [hauth]; exact id
  · exact hinv.of_quiet (.refl _) fun _ => id

theorem apStaAdd_forth {h : Hapd MlmeSta} (hinv : StaInv h) (addr : Addr) (alloc : Bool) {p : StaPtr}
    {s : Sta} (hs : h.mem p = some s) : (apStaAdd h addr alloc).1.mem p = some s := by
  obtain ⟨sta, -, heq⟩ | ⟨-, -, heq⟩ | ⟨-, -, heq⟩ := apStaAdd_cases h addr alloc
  · rwa [heq]
  · rwa [heq]
  rw [heq]
  refine mem_update_some.2 (.inr ⟨?_, hs⟩)
  rintro rfl
  rw [hinv.fresh _ le_rfl] at hs
  cases hs

theorem apStaAdd_back {h : Hapd MlmeSta} (addr : Addr) (alloc : Bool) {p : StaPtr} {s : Sta}
    (hs : (apStaAdd h addr alloc).1.mem p = some s) :
    h.mem p = some s ∨ s = { addr := addr, ext := default } := by
  obtain ⟨sta, -, heq⟩ | ⟨-, -, heq⟩ | ⟨-, -, heq⟩ := apStaAdd_cases h addr alloc
  · exact .inl (by rwa [heq] at hs)
  · exact .inl (by rwa [heq] at hs)
  rw [heq] at hs
  rcases mem_update_some.1 hs with ⟨-, rfl⟩ | ⟨-, hold⟩
  · exact .inr rfl
  · exact .inl hold

theorem Inv.apStaAdd (h : Inv b) (addr : Addr) (alloc : Bool) :
    Inv { b with hapd := (apStaAdd b.hapd addr alloc).1 } := by
  refine ⟨h.table.apStaAdd, fun p s hs hmfp => ?_, fun p s hs => ?_⟩
  · rcases apStaAdd_back addr alloc hs with hold | rfl
    · exact h.sm p s hold hmfp
    · cases hmfp
  · rcases apStaAdd_back addr alloc hs with hold | rfl
    · exact h.noFt p s hold
    · exact fun halg => by cases halg

theorem authenticate_core (f : AuthFrame) (ans : AuthAnswers) (s : Sta) :
    core (authenticate f ans s).1 = core s ∧ (authenticate f ans s).1.aid = s.aid ∧
      (authenticate f ans s).1.ext.authAlg ≠ wlanAuthFt := by
  rw [authenticate]
  split
  · exact ⟨rfl, rfl, by simp [wlanAuthOpen, wlanAuthFt]⟩
  have hkey : core (authSharedKey f ans s).1 = core s ∧ (authSharedKey f ans s).1.aid = s.aid := by
    rw [authSharedKey]
    repeat' split
    all_goals exact ⟨rfl, rfl⟩
  exact ⟨hkey.1, hkey.2, by simp [wlanAuthSharedKey, wlanAuthFt]⟩

theorem authStation_quiet (b : Bss) (sta : StaPtr) (f : AuthFrame) (ans : AuthAnswers)
    (hsta : ∃ s, b.hapd.mem sta = some s) :
    Quiet b.hapd (authStation b sta f ans).hapd ∧ (authStation b sta f ans).auth = b.auth ∧
      ((authStation b sta f ans).sent = b.sent ∨
        ∃ status, (authStation b sta f ans).sent =
          .auth f.sa f.authAlg (f.transaction + 1) status :: b.sent) := by
  rw [authStation]
  split
  · exact ⟨.refl _, rfl, .inr ⟨_, rfl⟩⟩
  have hpre : Quiet b.hapd (b.hapd.modify sta fun s => { s with flags.preauth := false }) :=
    .assign fun _ => ⟨rfl, rfl, rfl⟩
  have hquiet : Quiet b.hapd
      (if ans.acl = .acceptTimeout then
        apStaSessionTimeout (b.hapd.modify sta fun s => { s with flags.preauth := false }) sta
      else apStaNoSessionTimeout (b.hapd.modify sta fun s => { s with flags.preauth := false }) sta) := by
    split
    · exact hpre.rearm_of _ hsta
    · exact hpre.trans (.cancel _)
  dsimp only
  split
  · exact ⟨.refl _, rfl, .inl rfl⟩
  rename_i s hs
  refine ⟨hquiet.trans (.modify fun s' hs' => ?_), rfl, .inr ⟨_, rfl⟩⟩
  obtain rfl : s' = s := Option.some.inj (hs'.symm.trans hs)
  obtain ⟨hcore, haid, halg⟩ := authenticate_core f ans s'
  exact ⟨hcore, haid, fun _ => halg⟩

theorem handleAuth_cases (b : Bss) (f : AuthFrame) (ans : AuthAnswers) :
    ∃ hapd, (hapd = b.hapd ∨ hapd = (apStaAdd b.hapd f.sa ans.alloc).1) ∧
      Quiet hapd (handleAuth b f ans).hapd ∧ (handleAuth b f ans).auth = b.auth ∧
      ((handleAuth b f ans).sent = b.sent ∨
        ∃ status, (handleAuth b f ans).sent =
          .auth f.sa f.authAlg (f.transaction + 1) status :: b.sent) := by
  rw [handleAuth]
  split
  · exact ⟨b.hapd, .inl rfl, .refl _, rfl, .inr ⟨_, rfl⟩⟩
  split
  · exact ⟨b.hapd, .inl rfl, .refl _, rfl, .inr ⟨_, rfl⟩⟩
  · exact ⟨b.hapd, .inl rfl, .refl _, rfl, .inl rfl⟩
  -- the station is looked up or added, whether or not its session has a limit
  all_goals
    refine ⟨(Ap.apStaAdd b.hapd f.sa ans.alloc).1, .inr rfl, ?_⟩
    obtain ⟨sta, hget, heq⟩ | ⟨-, -, heq⟩ | ⟨-, -, heq⟩ := apStaAdd_cases b.hapd f.sa ans.alloc
    · obtain ⟨s, hs, -⟩ := exists_mem_of_apGetSta hget
      simp only [heq]
      exact authStation_quiet b sta f ans ⟨s, hs⟩
    · simp only [heq]
      exact ⟨.refl _, rfl, .inr ⟨_, rfl⟩⟩
    · simp only [heq]
      exact authStation_quiet { b with hapd := insertSta b.hapd _ } b.hapd.next f ans
        ⟨_, mem_update_some.2 (.inl ⟨rfl, rfl⟩)⟩

theorem Inv.handleAuth (h : Inv b) (f : AuthFrame) (ans : AuthAnswers) :
    Inv (handleAuth b f ans) := by
  obtain ⟨hapd, hor, hq, hauth, -⟩ := handleAuth_cases b f ans
  have hinv : Inv { b with hapd := hapd } := by
    rcases hor with rfl | rfl
    · exact h
    · exact h.apStaAdd f.sa ans.alloc
  refine hinv.of_quiet hq fun addr => ?_
  rw [hauth]
  exact id

theorem handleAssocCb_quiet (b : Bss) (da : Addr) (status : Status) (added : Bool) :
    Quiet b.hapd (handleAssocCb b da status added).hapd ∧
      (handleAssocCb b da status added).auth = b.auth ∧
      (handleAssocCb b da status added).sent = b.sent := by
  rw [handleAssocCb]
  split
  · exact ⟨.refl _, rfl, rfl⟩
  rename_i sta hget
  obtain ⟨s, hs, -⟩ := exists_mem_of_apGetSta hget
  split
  · exact ⟨.refl _, rfl, rfl⟩
  refine ⟨?_, rfl, rfl⟩
  dsimp only
  split
  · exact .assign fun _ => ⟨rfl, rfl, rfl⟩
  have hmod : Quiet b.hapd (b.hapd.modify sta fun s =>
      { s with
        flags := { s.flags with
          assoc := true
          authorized := s.flags.authorized || (!b.conf.ieee8021x && !b.wpa) ||
            s.ext.authAlg = wlanAuthFt }
        saQueryTimedOut := false }) := .assign fun _ => ⟨rfl, rfl, rfl⟩
  exact hmod.trans (.apStaDeauthenticate (hmod.exists_mem ⟨s, hs⟩))

theorem Inv.exec (h : Inv b) (op : Op) : Inv (exec cr wpsValid b op) := by
  unfold Mlme.exec
  split
  · exact h
  cases op with
  | auth f ans => exact h.handleAuth f ans
  | assoc f ans =>
    dsimp only
    cases hres : Mlme.handleAssoc cr wpsValid b f ans with
    | none => exact h.of_quiet (.refl _) fun _ => id
    | some b' => exact h.handleAssoc hres
  | assocCb da status added =>
    obtain ⟨hq, hauth, -⟩ := handleAssocCb_quiet b da status added
    exact h.of_quiet hq fun addr => by rw [hauth]; exact id
  | saQueryResponse sa => exact h.of_quiet (.withSta fun _ _ => .apStaStopSaQuery) fun _ => id
  | tick now => exact h.of_quiet (.refl _) fun _ => id
  | fire t inactiveSec alloc =>
    dsimp only
    split
    · exact h.deinit (h.table.erase t).fireTimer
        (Keeps.fireTimer (h := { b.hapd with timers := b.hapd.timers.erase t }))
    · exact h
  | disassoc sa => exact h.of_quiet (.withSta fun _ hsta => .handleDisassoc hsta) fun _ => id
  | deauth sa =>
    exact h.deinit (h.table.withSta fun _ _ => h.table.apFreeSta) (.withSta fun _ => .apFreeSta)
  | apStaDisassociate addr =>
    exact h.of_quiet (.withSta fun _ hsta => .apStaDisassociate hsta) fun _ => id
  | apStaDeauthenticate addr =>
    exact h.of_quiet (.withSta fun _ hsta => .apStaDeauthenticate hsta) fun _ => id
  | pmksaAdd alloc pmk spa sessionTimeout akmp =>
    refine h.of_quiet (.refl _) fun addr => ?_
    rw [pmksaCacheAuthAdd_isSome]
    exact id
  | pmksaExpire =>
    refine h.of_quiet (.refl _) fun addr => ?_
    rw [pmksaCacheExpire_isSome]
    exact id

end WpaSupplicant.Ap.Mlme

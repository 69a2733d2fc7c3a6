import WpaSupplicant.Authenticator.PortControl.Lemmas
import WpaSupplicant.Authenticator.Session

namespace WpaSupplicant.Authenticator

open Lib.Octets Lib.Window Lib.Effect Lib.Loop KeyData

section Runs

variable {cr : Crypto} {env : Env} {D D' : ℕ → Evidence} {W W' : Auth}

-- `o` has been done on an entry to PTKINITDONE: station `i`, in the state `sm`, has received the
-- message 4/4 `f`, and `o` is about this station and its PTK.
structure OpenedBy (cr : Crypto) (W : Auth) (e : Event) (out : List Out) (o : Out) (i : ℕ) (sm : Sta)
    (f : EapolKey) : Prop where
  event : ∃ data, e = .receive i data ∧ EapolKey.ofOctets? data = some f
  sta : W.sta i = some sm
  msg4 : Message4 cr sm f
  entry : ∃ origin l, out = .ptkInitDone sm.addr sm.anonce origin :: l ∧ o ∈ l
  output : (∃ alg len, o = .setKey 0 alg sm.addr 0 (sm.ptk.tkOctets len)) ∨
    o = .setEapol sm.addr .authorized true ∨ o = .setEapol sm.addr .portValid true

-- What an event leaves behind: every station waits, and a port is opened by message 4/4 alone.
structure Guarded (cr : Crypto) (D D' : ℕ → Evidence) (W : Auth) (e : Event) (W' : Auth) : Prop where
  sta : ∀ i sm, W'.sta i = some sm → Waits (D' i) sm
  opened : ∀ o ∈ W'.out, Opens o →
    ∃ i sm f, OpenedBy cr W e W'.out o i sm f ∧ (D i).ptk sm.addr sm.anonce sm.ptk

theorem Port.mono (h : Port D W) (hle : ∀ i, (D i).Le (D' i)) : Port D' W :=
  ⟨fun i sm hi => (h.sta i sm hi).mono (hle i), h.shut⟩

theorem Port.guarded {e : Event} (h : Port D' W') : Guarded cr D D' W e W' :=
  ⟨h.sta, fun o ho hopen => absurd hopen (h.shut o ho)⟩

theorem exec_receive_guarded {fuel i : ℕ} {data : Octets} (hrest : Resting W) (h : Port D W.start)
    (hs : wpaReceive cr env fuel W.start i data = some W') (hle : ∀ i, (D i).Le (D' i))
    (hnew : ∀ f sm, EapolKey.ofOctets? data = some f → W.sta i = some sm → Message2 sm f →
      ∀ addr anonce ptk, DerivedFrom cr W.ap sm f W'.out addr anonce ptk →
        (D' i).ptk addr anonce ptk) :
    Guarded cr D D' W (.receive i data) W' := by
  have hrest0 : Resting W.start := ⟨hrest.noRekey, hrest.idle⟩
  obtain rfl | ⟨f, hf, hrec⟩ := wpaReceive_received hs
  · exact (h.mono hle).guarded
  rcases hrec.port hrest0 h with hport | ⟨sm, U, htaken⟩
  · exact (hport.mono hle).guarded
  have hi : W.sta i = some sm := htaken.sta
  have hother (j : ℕ) (smj : Sta) (hji : j ≠ i) (hj : W'.sta j = some smj) : Waits (D' j) smj :=
    (htaken.others h j smj hji hj).mono (hle j)
  rcases htaken.msg with hmsg | hmsg
  · obtain ⟨⟨sm', hi', hwaits⟩, hshut⟩ := htaken.msg2 (E := D' i) h hmsg
      (fun ie hie => (hle i).2 ie ((h.sta i sm hi).stepping.ie ie hie))
      (hnew f sm hf hi (htaken.message2 hmsg))
    refine ⟨fun j smj hj => ?_, fun o ho hopen => absurd hopen (hshut o ho)⟩
    by_cases hji : j = i
    · subst hji
      exact Option.some.inj (hi'.symm.trans hj) ▸ hwaits
    · exact hother j smj hji hj
  · obtain ⟨hptk, ⟨sm', hi', hwaits⟩, origin, l, hl, hdone⟩ := htaken.msg4 h hmsg
    refine ⟨fun j smj hj => ?_, fun o ho hopen => ?_⟩
    · by_cases hji : j = i
      · subst hji
        exact Option.some.inj (hi'.symm.trans hj) ▸ hwaits.mono (hle j)
      · exact hother j smj hji hj
    · have hl : W'.out = .ptkInitDone sm.addr sm.anonce origin :: l := hl
      have hmem : o ∈ l := by
        rw [hl] at ho
        rcases List.mem_cons.mp ho with rfl | ho
        · exact absurd hopen id
        · exact ho
      refine ⟨i, sm, f, ⟨⟨data, rfl, hf⟩, hi, htaken.message4 hmsg, ⟨origin, l, hl, hmem⟩, ?_⟩, hptk⟩
      rcases hdone o hmem with hquiet | hout
      · exact absurd hopen hquiet.not_opens
      · exact hout

theorem wpaRemovePtk_waits {E : Evidence} (c : Ctx) (h : Waits E c.sm) :
    Waits E (wpaRemovePtk c).sm :=
  ⟨(wpaRemovePtk_unframed c h.stepping.unframed).mono E.noPtk_le, h.disconnect, h.deauthentication,
    h.authentication, h.reAuthentication, h.request, h.calculating⟩

theorem Waits.validated {E : Evidence} {sm : Sta} {req : AssocRequest} (h : Waits E sm)
    (hie : E.ie req.wpaIe) : Waits E (applyAssocRequest req sm) := by
  refine ⟨⟨h.stepping.init, h.stepping.frame, fun hv => ?_, fun ie h => ?_⟩, h.disconnect,
    h.deauthentication, h.authentication, h.reAuthentication, h.request, h.calculating⟩
  · have hsec := h.stepping.valid hv
    exact ⟨hsec.derived, hsec.reAuthentication, hsec.request, hsec.state⟩
  · exact Option.some.inj h ▸ hie

theorem Port.join (h : Port D W) (i : ℕ) (addr : Addr) (pos : ℕ) :
    Port D (wpaAuthStaInit W i addr pos) := by
  cases hi : W.sta i with
  | some sm => simpa [wpaAuthStaInit, hi] using h
  | none =>
    simp only [wpaAuthStaInit, hi, Option.isSome_none, Bool.false_eq_true, if_false]
    refine ⟨fun j smj hj => ?_, h.shut⟩
    by_cases hji : j = i
    · subst hji
      obtain rfl : ({ group := 0, addr := addr } : Sta) = smj := by simpa using hj
      exact ⟨⟨rfl, rfl, fun hv => Bool.noConfusion hv, fun ie h => by simp at h⟩, rfl, rfl, rfl, rfl,
        fun hr => Bool.noConfusion hr, fun _ => rfl⟩
    · exact h.sta j smj (by simpa [hji] using hj)

theorem Port.leave (h : Port D W) (i : ℕ) : Port D (wpaAuthStaDeinit W i) := by
  have hsta (j : ℕ) (hji : j ≠ i) : (W.withSta i clearGUpdate).sta j = W.sta j := by
    cases hi : W.sta i with
    | none => rw [Auth.withSta_none hi]
    | some sm => simp [Auth.withSta_some hi, Auth.put, hji]
  have hout : (W.withSta i clearGUpdate).out = W.out := by
    cases hi : W.sta i with
    | none => rw [Auth.withSta_none hi]
    | some sm =>
      rw [Auth.withSta_some hi]
      rfl
  refine ⟨fun j smj hj => ?_, fun o ho => h.shut o (hout ▸ ho)⟩
  by_cases hji : j = i
  · subst hji
    simp [wpaAuthStaDeinit] at hj
  refine h.sta j smj ?_
  rw [← hsta j hji]
  simpa [wpaAuthStaDeinit, hji] using hj

theorem run_port {fuel : ℕ} {e : Event} (hrest : Resting W) (h : Port D W)
    (hs : run cr env fuel W e = some W') (hle : ∀ i, (D i).Le (D' i))
    (hie : ∀ i req, e = .validateIe i req → (D' i).ie req.wpaIe)
    (hevent : ∀ i data, e ≠ .receive i data) : Port D' W' := by
  have hmono (V : Auth) (hV : Port D V) : Port D' V := hV.mono hle
  cases e with
  | receive i data => exact absurd rfl (hevent i data)
  | sendEapolTimeout i =>
    refine hmono _ (At.port (At.step (i := i) (E := D i) ?_ hs))
    exact (h.at hrest i).modSta _ (fun _ => rfl) fun sm hsm => hsm.stepping.congr rfl
  | rekeyPtk i =>
    refine hmono _ (At.port (At.step (i := i) (E := D i) ?_ hs))
    refine (h.at hrest i).modSta _ (fun _ => rfl) fun sm hsm => ?_
    have hun := hsm.stepping.unframed
    have hdrop : Stepping (D i).noPtk (wpaRequestNewPtk { sm with rekeyTimer := false }) :=
      Unframed.drop ⟨hun.init, hun.frame, hun.ie⟩ rfl
    exact hdrop.mono (D i).noPtk_le
  | rekeyGtk => exact hmono _ (h.rekeyGtk hrest hs)
  | rekeyGmk => exact hmono _ (Option.some.inj hs ▸ wpaRekeyGmk_steady (@port_steady cr env D) ⟨hrest, h⟩).2
  | gtkRekey => exact hmono _ (Option.some.inj hs ▸ wpaGtkRekey_steady (@port_steady cr env D) ⟨hrest, h⟩).2
  | callStep i =>
    refine hmono _ (At.port (At.step (i := i) (E := D i) ?_ hs))
    exact (h.at hrest i).mono fun sm hsm => hsm.stepping
  | smEvent i event =>
    refine hmono _ (At.port (i := i) ?_)
    by_cases hauth : event = .auth
    · subst hauth
      exact wpaAuthSmEvent_auth_at (h.at hrest i) hs
    · exact (wpaAuthSmEvent_at hauth (h.at hrest i) hs).mono fun sm hsm => hsm.mono (D i).noPtk_le
  | assocCb i between last =>
    refine hmono _ (At.port (i := i) ?_)
    exact (handleAssocCb_at (h.at hrest i) hs).mono fun sm hsm => hsm.mono (D i).noPtk_le
  | deletekeys i =>
    refine hmono _ (Option.some.inj hs ▸ At.port (i := i) ?_)
    exact (h.at hrest i).withSta _ wpaRemovePtk_harmless wpaRemovePtk_waits
  | validateIe i req =>
    obtain rfl := Option.some.inj hs
    refine At.port (i := i) ?_
    refine ((hmono W h).at hrest i).modSta _ (fun _ => rfl) fun sm hsm => ?_
    exact hsm.validated (hie i req rfl)
  | noWpa i | pmksaClear i => exact hmono _ (Option.some.inj hs ▸ h.modSta i _ fun _ => rfl)
  | staInit i addr pos => exact hmono _ (Option.some.inj hs ▸ h.join i addr pos)
  | staDeinit i => exact hmono _ (Option.some.inj hs ▸ h.leave i)
  | staSetVlan i vlanId =>
    exact hmono _ (Option.some.inj hs ▸ (wpaAuthStaSetVlan_at (h.at hrest i) vlanId).port)

-- The PTK comes from an earlier message 2/4 that station `i` has received, whose MIC verified under
-- it and whose IE is the one of the association request before it.
def Keyed (cr : Crypto) (tr : List (Auth × Event × Auth)) (i : ℕ) (addr : Addr) (anonce : Nonce)
    (ptk : Ptk) : Prop :=
  ∃ later earlier V data V' sm f,
    tr = later ++ (V, .receive i data, V') :: earlier ∧
    EapolKey.ofOctets? data = some f ∧ V.sta i = some sm ∧ Message2 sm f ∧
    (∃ U req U', (U, .validateIe i req, U') ∈ earlier ∧
      eapolKeyIe (wpaParseKdeIes (kdeOf f)).2 = some req.wpaIe) ∧
    DerivedFrom cr V.ap sm f V'.out addr anonce ptk

def evidenceOf (cr : Crypto) (tr : List (Auth × Event × Auth)) (i : ℕ) : Evidence where
  ptk := Keyed cr tr i
  ie ie := ∃ U req U', (U, .validateIe i req, U') ∈ tr ∧ req.wpaIe = ie

theorem evidenceOf_le (tr : List (Auth × Event × Auth)) (x : Auth × Event × Auth) (i : ℕ) :
    (evidenceOf cr tr i).Le (evidenceOf cr (x :: tr) i) := by
  constructor
  · rintro addr anonce ptk ⟨later, earlier, V, data, V', sm, f, rfl, hrest⟩
    exact ⟨x :: later, earlier, V, data, V', sm, f, rfl, hrest⟩
  · rintro ie ⟨U, req, U', hmem, hreq⟩
    exact ⟨U, req, U', List.mem_cons_of_mem _ hmem, hreq⟩

theorem step_guarded {tr : List (Auth × Event × Auth)} {e : Event} (hrest : Resting W)
    (h : Port (evidenceOf cr tr) W.start) (hs : Step cr W e W') :
    Guarded cr (evidenceOf cr tr) (evidenceOf cr ((W, e, W') :: tr)) W e W' := by
  obtain ⟨env, fuel, hs⟩ := hs
  have hrest0 : Resting W.start := ⟨hrest.noRekey, hrest.idle⟩
  have hle := @evidenceOf_le cr tr (W, e, W')
  rw [exec] at hs
  split at hs
  · by_cases hreceive : ∃ i data, e = .receive i data
    · obtain ⟨i, data, rfl⟩ := hreceive
      refine exec_receive_guarded hrest h hs hle fun f sm hf hi hmsg addr anonce ptk hd => ?_
      have hie := hmsg.ie
      simp only [wpaCompareRsnIe, Bool.and_eq_true, decide_eq_true_eq] at hie
      obtain ⟨ie, hsome⟩ := Option.isSome_iff_exists.mp hie.1
      obtain ⟨U, req, U', hmem, rfl⟩ := (h.sta i sm hi).stepping.ie ie hsome
      exact ⟨[], tr, W, data, W', sm, f, rfl, hf, hi, hmsg,
        ⟨U, req, U', hmem, hie.2.symm.trans hsome⟩, hd⟩
    · refine (run_port hrest0 h hs hle ?_ fun i data heq => hreceive ⟨i, data, heq⟩).guarded
      rintro i req rfl
      exact ⟨W, req, W', List.mem_cons_self, rfl⟩
  · simp at hs

theorem run_waits {tr : List (Auth × Event × Auth)} (h : Run cr tr W) :
    Port (evidenceOf cr tr) W.start := by
  induction h with
  | init h =>
    refine ⟨fun i sm hi => ?_, fun o ho => by simp [Auth.start] at ho⟩
    simp [Auth.start, (initial_sta h).1 i] at hi
  | step h hs ih =>
    exact ⟨(step_guarded (run_resting h) ih hs).sta, fun o ho => by simp [Auth.start] at ho⟩

end Runs

-- In every run, a pairwise key goes to the driver, and a port is opened, only on an entry to
-- PTKINITDONE that message 4/4 has caused, with a PTK from the ANonce of the station and from a
-- message 2/4 that has been verified.
theorem port_opened_by_message4 {cr : Crypto} {tr : List (Auth × Event × Auth)} {W W' : Auth}
    {e : Event} {o : Out} (h : Run cr tr W) (hs : Step cr W e W') (ho : o ∈ W'.out)
    (hopen : Opens o) :
    ∃ i sm f, OpenedBy cr W e W'.out o i sm f ∧ Keyed cr tr i sm.addr sm.anonce sm.ptk :=
  (step_guarded (run_resting h) (run_waits h) hs).opened o ho hopen

-- The port of the sample station is opened by its message 4/4.
set_option maxRecDepth 100000 in
theorem port_opened_by_message4_sample :
    ∃ r W', sampleRun (sampleAssoc ++ [sampleMsg2 1]) = some r ∧
      Step .transparent r.2 (sampleMsg4 2) W' ∧ .setEapol 2 .authorized true ∈ W'.out ∧
      ∃ i sm f, OpenedBy .transparent r.2 (sampleMsg4 2) W'.out (.setEapol 2 .authorized true) i sm f ∧
        Keyed .transparent r.1 i sm.addr sm.anonce sm.ptk := by
  have hsome : ((sampleRun (sampleAssoc ++ [sampleMsg2 1])).bind fun r =>
      (exec .transparent .benign 20 r.2 (sampleMsg4 2)).map fun W' =>
        decide (Out.setEapol 2 .authorized true ∈ W'.out)) = some true := by
    rfl
  obtain ⟨r, hr, hsome⟩ := Option.bind_eq_some_iff.mp hsome
  obtain ⟨W', hs, hmem⟩ := Option.map_eq_some_iff.mp hsome
  have hstep : Step .transparent r.2 (sampleMsg4 2) W' := ⟨_, _, hs⟩
  have hmem : Out.setEapol 2 .authorized true ∈ W'.out := of_decide_eq_true hmem
  exact ⟨r, W', hr, hstep, hmem,
    port_opened_by_message4 (run_sampleRun hr) hstep hmem ⟨.inl rfl, rfl⟩⟩

end WpaSupplicant.Authenticator

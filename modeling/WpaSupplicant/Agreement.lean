import WpaSupplicant.Authenticator.PortControl
import WpaSupplicant.Authenticator.Reflection
import WpaSupplicant.Supplicant.Install
import WpaSupplicant.Supplicant.Replies

namespace WpaSupplicant

open Lib.Octets KeyData

-- The history in an output: the KCK and the frame of a MIC that was computed, and the inputs of a PTK
-- that was derived
def Authenticator.Out.micOver? : Authenticator.Out → Option (BitVec 128 × EapolKey)
  | .micOver kck f => some (kck, f)
  | _ => none

def Supplicant.Out.micOver? : Supplicant.Out → Option (BitVec 128 × EapolKey)
  | .micOver kck f => some (kck, f)
  | _ => none

def Authenticator.Out.derivePtk? : Authenticator.Out → Option PtkInput
  | .derivePtk input => some input
  | _ => none

def Supplicant.Out.derivePtk? : Supplicant.Out → Option PtkInput
  | .derivePtk input => some input
  | _ => none

namespace Agreement

inductive Move where
  | auth (W : Authenticator.Auth) (e : Authenticator.Event) (W' : Authenticator.Auth)
  | supp (r : Supplicant.Record)

namespace Move

def auth? : Move → Option (Authenticator.Auth × Authenticator.Event × Authenticator.Auth)
  | auth W e W' => some (W, e, W')
  | supp _ => none

def supp? : Move → Option Supplicant.Record
  | auth _ _ _ => none
  | supp r => some r

def mics : Move → List (BitVec 128 × EapolKey)
  | auth _ _ W' => W'.out.filterMap Authenticator.Out.micOver?
  | supp r => r.out.filterMap Supplicant.Out.micOver?

def derivations : Move → List PtkInput
  | auth _ _ W' => W'.out.filterMap Authenticator.Out.derivePtk?
  | supp r => r.out.filterMap Supplicant.Out.derivePtk?

end Move

-- One of the two ends has computed a MIC over the frame with the given KCK. A MIC covers the frame
-- with its MIC field cleared.
def computed (tr : List Move) (kck : BitVec 128) (f : EapolKey) : Bool :=
  tr.any fun x => x.mics.any fun p => p.1 = kck && p.2.clearMic = f.clearMic

-- The MIC is ideal: what verifies under the KCK of a station has been computed with that KCK.
-- Everything else about a frame that is delivered is up to the network.
def authentic (cr : Crypto) (tr : List Move) (W : Authenticator.Auth) : Authenticator.Event → Bool
  | .receive i data =>
    match W.sta i, EapolKey.ofOctets? data with
    | some sm, some f =>
      !(sm.ptkValid && Authenticator.wpaVerifyKeyMic cr sm.ptk f) || computed tr sm.ptk.kck f
    | _, _ => true
  | _ => true

-- The runs of both ends, interleaved in any order, newest move first. The network is in the events:
-- either end may receive any frame at any time, as often as it likes.
inductive Run (cr : Crypto) : List Move → Authenticator.Auth → Supplicant.Sm → Prop where
  | init {W : Authenticator.Auth} {conf : Supplicant.Config} (h : Authenticator.Initial cr W)
      (hconf : Supplicant.Plain conf) : Run cr [] W (Supplicant.initial conf)
  | auth {tr : List Move} {W W' : Authenticator.Auth} {sm : Supplicant.Sm}
      {e : Authenticator.Event} (h : Run cr tr W sm) (hs : Authenticator.Step cr W e W')
      (hmic : authentic cr tr W e = true) : Run cr (.auth W e W' :: tr) W' sm
  | supp {tr : List Move} {W : Authenticator.Auth} {sm sm' : Supplicant.Sm} {e : Supplicant.Event}
      {out : List Supplicant.Out} (h : Run cr tr W sm) (hs : Supplicant.Step cr sm e out sm')
      (he : e.Plain) : Run cr (.supp ⟨sm, e, out, sm'⟩ :: tr) W sm'

-- The PRF is injective on the derivations of the run: their KCKs tell PMK, addresses and nonces.
def PrfInjective (cr : Crypto) (tr : List Move) : Prop :=
  ∀ x ∈ tr.flatMap Move.derivations, ∀ y ∈ tr.flatMap Move.derivations,
    (cr.ptkKeys x).1 = (cr.ptkKeys y).1 → x = y

-- In the step `r`, the Supplicant has sent the message 4/4 `f` under the PTK it has then.
def Sent4of4 (r : Supplicant.Record) (f : EapolKey) : Prop :=
  ∃ g, g.clearMic = f.clearMic ∧ .micOver r.sm'.ptk.kck g ∈ r.out ∧
    Supplicant.Answers r r.sm'.ptk.kck g

section Projections

variable {cr : Crypto} {tr : List Move} {W : Authenticator.Auth} {sm : Supplicant.Sm}

theorem mem_auth? {x : Authenticator.Auth × Authenticator.Event × Authenticator.Auth} :
    x ∈ tr.filterMap Move.auth? ↔ .auth x.1 x.2.1 x.2.2 ∈ tr := by
  rw [List.mem_filterMap]
  constructor
  · rintro ⟨y, hy, heq⟩
    cases y with
    | auth W e W' =>
      obtain rfl := Option.some.inj heq
      exact hy
    | supp r => simp [Move.auth?] at heq
  · exact fun h => ⟨_, h, rfl⟩

theorem mem_supp? {r : Supplicant.Record} : r ∈ tr.filterMap Move.supp? ↔ .supp r ∈ tr := by
  rw [List.mem_filterMap]
  constructor
  · rintro ⟨y, hy, heq⟩
    cases y with
    | auth W e W' => simp [Move.supp?] at heq
    | supp q =>
      obtain rfl := Option.some.inj heq
      exact hy
  · exact fun h => ⟨_, h, rfl⟩

theorem Run.authenticator (h : Run cr tr W sm) :
    Authenticator.Run cr (tr.filterMap Move.auth?) W := by
  induction h with
  | init h hconf => exact .init h
  | auth h hs hmic ih => exact .step ih hs
  | supp h hs he ih => exact ih

-- A MIC of the Supplicant over what can be taken for message 4/4 is the one of message 4/4, and the
-- PTK it was computed with has been derived.
def Signed (cr : Crypto) (tr : List Supplicant.Record) : Prop :=
  ∀ r ∈ tr, ∀ kck g, .micOver kck g ∈ r.out →
    Supplicant.NoMsg4 g ∨ (Supplicant.Answers r kck g ∧ Supplicant.Derived cr tr r.sm'.ptk)

theorem Run.supplicant (h : Run cr tr W sm) :
    Supplicant.Origins cr (tr.filterMap Move.supp?) sm ∧ Signed cr (tr.filterMap Move.supp?) := by
  induction h with
  | init h hconf => exact ⟨⟨hconf, rfl, fun hset => by simp [Supplicant.initial] at hset,
      fun hset => by simp [Supplicant.initial] at hset⟩, fun r hr => by simp at hr⟩
  | auth h hs hmic ih => exact ih
  | @supp tr W sm sm' e out h hs he ih =>
    obtain ⟨horigins, hsigned⟩ := ih
    obtain ⟨hnext, hmics⟩ := Supplicant.step_origins horigins he hs
    refine ⟨hnext, fun r hr kck g hmic => ?_⟩
    rcases List.mem_cons.mp hr with rfl | hr
    · refine (hmics kck g hmic).imp_right fun hans => ⟨hans, hnext.ptk ?_⟩
      obtain ⟨src, data, f, -, -, -, hset, -⟩ := hans
      exact hset
    · exact (hsigned r hr kck g hmic).imp_right fun hans => ⟨hans.1, hans.2.later _⟩

theorem computed_true {kck : BitVec 128} {f : EapolKey} (h : computed tr kck f = true) :
    ∃ g, g.clearMic = f.clearMic ∧
      ((∃ V e V', .auth V e V' ∈ tr ∧ .micOver kck g ∈ V'.out) ∨
        ∃ r, .supp r ∈ tr ∧ .micOver kck g ∈ r.out) := by
  obtain ⟨x, hx, hmics⟩ := List.any_eq_true.mp h
  obtain ⟨⟨k, g⟩, hp, heq⟩ := List.any_eq_true.mp hmics
  simp only [Bool.and_eq_true, decide_eq_true_eq] at heq
  obtain ⟨rfl, hclear⟩ := heq
  refine ⟨g, hclear, ?_⟩
  cases x with
  | auth V e V' =>
    obtain ⟨o, ho, hmic⟩ := List.mem_filterMap.mp hp
    cases o with
    | micOver k' g' =>
      obtain ⟨rfl, rfl⟩ := Prod.mk.inj (Option.some.inj hmic)
      exact .inl ⟨V, e, V', hx, ho⟩
    | _ => simp [Authenticator.Out.micOver?] at hmic
  | supp r =>
    obtain ⟨o, ho, hmic⟩ := List.mem_filterMap.mp hp
    cases o with
    | micOver k' g' =>
      obtain ⟨rfl, rfl⟩ := Prod.mk.inj (Option.some.inj hmic)
      exact .inr ⟨r, hx, ho⟩
    | _ => simp [Supplicant.Out.micOver?] at hmic

theorem mem_derivations_auth {V V' : Authenticator.Auth} {e : Authenticator.Event} {x : PtkInput}
    (h : .auth V e V' ∈ tr) (hx : .derivePtk x ∈ V'.out) : x ∈ tr.flatMap Move.derivations :=
  List.mem_flatMap.mpr ⟨_, h, List.mem_filterMap.mpr ⟨_, hx, rfl⟩⟩

theorem mem_derivations_supp {r : Supplicant.Record} {x : PtkInput} (h : .supp r ∈ tr)
    (hx : .derivePtk x ∈ r.out) : x ∈ tr.flatMap Move.derivations :=
  List.mem_flatMap.mpr ⟨_, h, List.mem_filterMap.mpr ⟨_, hx, rfl⟩⟩

theorem keyed_derived {i : ℕ} {addr : Addr} {anonce : Nonce} {ptk : Ptk}
    (h : Authenticator.Keyed cr (tr.filterMap Move.auth?) i addr anonce ptk) :
    ∃ x ∈ tr.flatMap Move.derivations, ptk.keys = cr.ptkKeys x := by
  obtain ⟨later, earlier, V, data, V', sta, f, htr, -, -, -, -, pmk, -, -, rfl, -, hmem⟩ := h
  have hin : .auth V (.receive i data) V' ∈ tr := by
    refine (@mem_auth? tr (V, .receive i data, V')).mp ?_
    rw [htr]
    simp
  exact ⟨_, mem_derivations_auth hin hmem, rfl⟩

theorem clearMic_fields {f g : EapolKey} (h : g.clearMic = f.clearMic) :
    g.keyInfo = f.keyInfo ∧ g.keyDataLength = f.keyDataLength := by
  have hinfo := congrArg EapolKey.keyInfo h
  have hlen := congrArg EapolKey.keyDataLength h
  exact ⟨hinfo, hlen⟩

-- The message 4/4 that the Authenticator accepts has been sent by the Supplicant: it is no frame of
-- the Authenticator itself, and no other frame of the Supplicant.
theorem message4_sent {sta : Authenticator.Sta} {f : EapolKey} (h : Run cr tr W sm)
    (hmsg : Authenticator.Message4 cr sta f) (hcomputed : computed tr sta.ptk.kck f = true) :
    ∃ r, .supp r ∈ tr ∧ Sent4of4 r f ∧ sta.ptk.kck = r.sm'.ptk.kck ∧
      Supplicant.Derived cr (tr.filterMap Move.supp?) r.sm'.ptk := by
  obtain ⟨g, hclear, hby⟩ := computed_true hcomputed
  obtain ⟨hinfo, hlen⟩ := clearMic_fields hclear
  rcases hby with ⟨V, e, V', hin, hmic⟩ | ⟨r, hin, hmic⟩
  · have hasks := Authenticator.run_asking h.authenticator (V, e, V') ((mem_auth?).mpr hin) _ hmic
    rw [Authenticator.Asks, hinfo, hmsg.ack, hmsg.smkMessage] at hasks
    simp at hasks
  rcases h.supplicant.2 r ((mem_supp?).mpr hin) _ g hmic with hno | ⟨hans, hderived⟩
  · rw [Supplicant.NoMsg4, hinfo, hlen] at hno
    rcases hno with hno | hno | hno
    · simp [hmsg.request] at hno
    · exact absurd hmsg.empty hno
    · simp [hmsg.pairwise] at hno
  · have hkck : sta.ptk.kck = r.sm'.ptk.kck := by
      obtain ⟨_, _, _, -, -, -, -, heq⟩ := hans
      exact heq
    rw [hkck] at hmic hans
    exact ⟨r, hin, ⟨g, hclear, hmic, hans⟩, hkck, hderived⟩

end Projections

-- In every run of both ends with an ideal MIC and a PRF without collisions, when a station enters
-- PTKINITDONE and its pairwise key goes to the driver, the Supplicant has sent the message 4/4 that
-- caused it, and both PTKs have the same KCK, KEK and TK1.
theorem handshake_key_agreement {cr : Crypto} {tr : List Move} {W W' : Authenticator.Auth}
    {sm : Supplicant.Sm} {e : Authenticator.Event} {vlanId : ℕ} {alg : WpaAlg} {addr : Addr}
    {key : Octets} (h : Run cr tr W sm) (hs : Authenticator.Step cr W e W')
    (hmic : authentic cr tr W e = true) (hprf : PrfInjective cr tr)
    (hset : .setKey vlanId alg addr 0 key ∈ W'.out) (halg : alg ≠ .none) :
    ∃ i sta f r, Authenticator.OpenedBy cr W e W'.out (.setKey vlanId alg addr 0 key) i sta f ∧
      (∃ len, key = sta.ptk.tkOctets len) ∧ .supp r ∈ tr ∧ Sent4of4 r f ∧
      r.sm'.ptk.keys = sta.ptk.keys := by
  obtain ⟨i, sta, f, hopened, hkeyed⟩ := (Authenticator.step_guarded
    (Authenticator.run_resting h.authenticator) (Authenticator.run_waits h.authenticator) hs).opened
    _ hset ⟨halg, rfl⟩
  have hlen : ∃ len, key = sta.ptk.tkOctets len := by
    rcases hopened.output with ⟨alg', len, heq⟩ | heq | heq
    · simp only [Authenticator.Out.setKey.injEq] at heq
      exact ⟨len, heq.2.2.2.2⟩
    · simp at heq
    · simp at heq
  -- the MIC of message 4/4 has been verified, so that one of the two ends has computed it
  have hcomputed : computed tr sta.ptk.kck f = true := by
    obtain ⟨data, rfl, hf⟩ := hopened.event
    simpa [authentic, hopened.sta, hf, hopened.msg4.valid, hopened.msg4.verified] using hmic
  obtain ⟨r, hin, hsent, hkck, q, hq, x, hx, hkeysS⟩ := message4_sent h hopened.msg4 hcomputed
  obtain ⟨y, hy, hkeysA⟩ := keyed_derived hkeyed
  have hxy : x = y := by
    refine hprf x (mem_derivations_supp ((mem_supp?).mp hq) hx) y hy ?_
    rw [← hkeysS, ← hkeysA]
    exact hkck.symm
  exact ⟨i, sta, f, r, hopened, hlen, hin, hsent, by rw [hkeysS, hkeysA, hxy]⟩

-- A session to evaluate, with the two ends of the other samples: the network hands the last frame of
-- one end to the other one.
structure Session where
  tr : List Move
  W : Authenticator.Auth
  sm : Supplicant.Sm

inductive Act where
  | auth (e : Authenticator.Event)
  | setPmk (pmk : Octets)
  | notifyAssoc (bssid : Addr)
  | toSupplicant
  | toAuthenticator

def authFrame? : Authenticator.Out → Option Octets
  | .sendEapol _ frame _ => some frame.toOctets
  | _ => none

def suppFrame? : Supplicant.Out → Option Octets
  | .etherSend _ frame => some frame.toOctets
  | _ => none

namespace Session

def auth (s : Session) (e : Authenticator.Event) : Option Session :=
  if authentic .transparent s.tr s.W e then
    (Authenticator.exec .transparent .benign 20 s.W e).map fun W' =>
      ⟨.auth s.W e W' :: s.tr, W', s.sm⟩
  else none

def supp (s : Session) (e : Supplicant.Event) : Option Session :=
  (Supplicant.exec .transparent .benign s.sm e).map fun c =>
    ⟨.supp ⟨s.sm, e, c.out, c.sm⟩ :: s.tr, s.W, c.sm⟩

def answer (s : Session) : Option Octets :=
  (s.tr.head?.bind Move.supp?).bind fun r => r.out.findSome? suppFrame?

def act (s : Session) : Act → Option Session
  | .auth e => s.auth e
  | .setPmk pmk => s.supp (.setPmk pmk)
  | .notifyAssoc bssid => s.supp (.notifyAssoc bssid)
  | .toSupplicant => (s.W.out.findSome? authFrame?).bind fun data => s.supp (.rxEapol 1 data)
  | .toAuthenticator => s.answer.bind fun data => s.auth (.receive 0 data)

def Reached (s : Session) : Prop := Run .transparent s.tr s.W s.sm

theorem auth_reached {s t : Session} {e : Authenticator.Event} (h : s.Reached)
    (hs : s.auth e = some t) : t.Reached := by
  rw [auth] at hs
  split at hs
  · rename_i hmic
    obtain ⟨W', hW', rfl⟩ := Option.map_eq_some_iff.mp hs
    exact Run.auth h ⟨_, _, hW'⟩ hmic
  · simp at hs

theorem supp_reached {s t : Session} {e : Supplicant.Event} (h : s.Reached)
    (hs : s.supp e = some t) (he : e.Plain) : t.Reached := by
  obtain ⟨c, hc, rfl⟩ := Option.map_eq_some_iff.mp hs
  exact Run.supp h ⟨_, c.tick, hc⟩ he

theorem act_reached (s : Session) (a : Act) (t : Session) (h : s.Reached) (hs : s.act a = some t) :
    t.Reached := by
  cases a with
  | auth e => exact auth_reached h hs
  | setPmk pmk => exact supp_reached h hs trivial
  | notifyAssoc bssid => exact supp_reached h hs trivial
  | toSupplicant =>
    obtain ⟨data, -, hs⟩ := Option.bind_eq_some_iff.mp hs
    exact supp_reached h hs trivial
  | toAuthenticator =>
    obtain ⟨data, -, hs⟩ := Option.bind_eq_some_iff.mp hs
    exact auth_reached h hs

end Session

def sampleActs : List Act :=
  Authenticator.sampleAssoc.map .auth ++
    [.setPmk (List.replicate 32 1), .notifyAssoc 1, .toSupplicant, .toAuthenticator, .toSupplicant]

def sampleSession : Option Session :=
  (Authenticator.wpaInit .transparent .benign Authenticator.sampleConf 1).bind fun W =>
    sampleActs.foldlM Session.act ⟨[], W, Supplicant.initial Supplicant.sampleConf⟩

theorem sampleSession_reached {s : Session} (h : sampleSession = some s) : s.Reached := by
  obtain ⟨W, hW, hs⟩ := Option.bind_eq_some_iff.mp h
  refine Lib.Loop.foldlM_rule Session.act_reached sampleActs ?_ hs
  exact Run.init ⟨_, _, _, hW⟩ ⟨rfl, fun ie hie => by obtain rfl := Option.some.inj hie; decide⟩

instance (cr : Crypto) (tr : List Move) : Decidable (PrfInjective cr tr) :=
  inferInstanceAs (Decidable (∀ x ∈ tr.flatMap Move.derivations, ∀ y ∈ tr.flatMap Move.derivations,
    (cr.ptkKeys x).1 = (cr.ptkKeys y).1 → x = y))

def sampleTk : Octets := [1, 1, 1, 1, 1, 1, 1, 1, 1, 1, 1, 1, 1, 1, 1, 3]

theorem handshake_key_agreement_sample :
    ∃ s data W', sampleSession = some s ∧ s.answer = some data ∧
      Authenticator.Step .transparent s.W (.receive 0 data) W' ∧
      .setKey 0 .ccmp 2 0 sampleTk ∈ W'.out ∧
      ∃ i sta f r, Authenticator.OpenedBy .transparent s.W (.receive 0 data) W'.out
          (.setKey 0 .ccmp 2 0 sampleTk) i sta f ∧ (∃ len, sampleTk = sta.ptk.tkOctets len) ∧
        .supp r ∈ s.tr ∧ Sent4of4 r f ∧ r.sm'.ptk.keys = sta.ptk.keys := by
  have hsome : (sampleSession.bind fun s => s.answer.bind fun data =>
      (Authenticator.exec .transparent .benign 20 s.W (.receive 0 data)).map fun W' =>
        (authentic .transparent s.tr s.W (.receive 0 data), decide (PrfInjective .transparent s.tr),
          decide (.setKey 0 .ccmp 2 0 sampleTk ∈ W'.out))) = some (true, true, true) := by
    decide +kernel
  obtain ⟨s, hs, hsome⟩ := Option.bind_eq_some_iff.mp hsome
  obtain ⟨data, hdata, hsome⟩ := Option.bind_eq_some_iff.mp hsome
  obtain ⟨W', hexec, heq⟩ := Option.map_eq_some_iff.mp hsome
  simp only [Prod.mk.injEq, decide_eq_true_eq] at heq
  obtain ⟨hmic, hprf, hset⟩ := heq
  have hstep : Authenticator.Step .transparent s.W (.receive 0 data) W' := ⟨_, _, hexec⟩
  exact ⟨s, data, W', hs, hdata, hstep, hset,
    handshake_key_agreement (sampleSession_reached hs) hstep hmic hprf hset (by decide)⟩

end Agreement

end WpaSupplicant
